import SchemaScribe.Proofs.Endpoint.Failure
import SchemaScribe.Proofs.Endpoint.Independence
import SchemaScribe.Proofs.Json.Blocked

/-! # Drafts that are not sent

A draft whose variables can be copied is not sent if something in its body cannot be written, and for
no other reason. The call then fails before anything reaches the wire, and everything is as it was.
-/
namespace SchemaScribe.Client

variable {desk : Desk} {name : String} {type : Option ResultType}

theorem step_run_of_payload {fault : ClientFault} (h : payload (desk.draft name) = .error fault) :
    step desk (.run name type) = (.error fault.notice, desk) := by
  have hrequest : desk.client.request (desk.draft name) = .error fault := request_of_payload h
  have hanswer : (desk.client.run (desk.draft name) type desk.wire).1 = .error fault :=
    run_of_fault hrequest
  have hwire : (desk.client.run (desk.draft name) type desk.wire).2 = desk.wire := by
    rw [run, execute_of_fault hrequest]
  rw [step, Desk.hear, hanswer, hwire]
  rfl

/-- What blocks a body has the draft refused with what cannot be written in it. -/
theorem payload_of_blocked {draft : Draft} {body : Entries} (hbody : draft.body = .ok body)
    (h : Json.Blocked (some Numeral.digitLimit) (.dict body)) :
    ∃ reason, payload draft = .error (.unwritable reason) := by
  have hfails : Json.Fails (Json.write .request (.dict body)) := (Json.write_fails_iff rfl _).mpr h
  obtain ⟨reason, hreason⟩ := hfails
  rw [payload_of_body hbody, hreason]
  exact ⟨reason, rfl⟩

theorem payload_of_not_blocked {draft : Draft} {body : Entries} (hbody : draft.body = .ok body)
    (h : ¬ Json.Blocked (some Numeral.digitLimit) (.dict body)) :
    ∃ data, payload draft = .ok data := by
  rw [payload_of_body hbody]
  cases hwrite : Json.write .request (.dict body) with
  | error reason => exact absurd ((Json.write_fails_iff rfl _).mp ⟨reason, hwrite⟩) h
  | ok data => exact ⟨data, rfl⟩

/-- Whoever runs a draft whose variables can be copied and whose headers have texts for names is told
before sending that a value is not fit to be sent, if and only if there is something in the body that
cannot be written. Then nothing is sent, no reply is taken, and neither the draft nor the client is
changed. Otherwise exactly one request is sent. -/
theorem run_withheld_iff (hclient : Headers.Named desk.client.headers)
    (hdraft : Headers.Named (desk.draft name).headers) {body : Entries}
    (hbody : (desk.draft name).body = .ok body) (type : Option ResultType) :
    let answer := (step desk (.run name type)).1
    let next := (step desk (.run name type)).2
    let blocked := Json.Blocked (some Numeral.digitLimit) (.dict body)
    ((∃ notice, answer = .error notice ∧ notice.kind = .value ∧
      next.wire.sent = desk.wire.sent) ↔ blocked) ∧
    (blocked → next = desk) ∧
    (¬ blocked → next.Agrees desk ∧ ∃ request, next.wire.sent = desk.wire.sent ++ [request]) := by
  intro answer next blocked
  have hagrees : next.Agrees desk := Desk.agrees_step_call rfl
  by_cases hb : blocked
  · obtain ⟨reason, hpayload⟩ := payload_of_blocked hbody hb
    have hstep : step desk (.run name type) =
        (.error (ClientFault.unwritable reason).notice, desk) := step_run_of_payload hpayload
    have hnext : next = desk := congrArg Prod.snd hstep
    refine ⟨iff_of_true ⟨_, congrArg Prod.fst hstep, rfl, ?_⟩ hb, fun _ => hnext,
      fun hnot => absurd hb hnot⟩
    rw [hnext]
  · obtain ⟨data, hpayload⟩ := payload_of_not_blocked hbody hb
    have hrequest := request_eq_ok hpayload (hclient.append hdraft).misnamed?
    obtain ⟨request, hsent⟩ : ∃ request, next.wire.sent = desk.wire.sent ++ [request] :=
      ⟨_, sent_run hrequest type desk.wire⟩
    refine ⟨iff_of_false ?_ hb, fun hblocked => absurd hblocked hb,
      fun _ => ⟨hagrees, request, hsent⟩⟩
    rintro ⟨notice, -, -, hkept⟩
    have hlength := congrArg List.length (hsent.symm.trans hkept)
    simp at hlength

/-- A desk with one draft, which asks for what a filter lets through. -/
def filterDesk (filter : Value) : Desk :=
  { client := heroClient
    drafts := [("filter", { query := "\x7b hero \x7d", bindings := [(.str "filter", filter)] })]
    wire := { replies := [Wire.silence] } }

/-- A filter between two limits, of which one is no number. -/
def limits : Value := .dict [(.str "between", .tuple [.int 1, .list [.float .nan]])]

theorem run_withheld_iff_limits :
    Headers.Named (filterDesk limits).client.headers ∧
      Headers.Named ((filterDesk limits).draft "filter").headers ∧
      (∃ body, ((filterDesk limits).draft "filter").body = .ok body) ∧
      (step (filterDesk limits) (.run "filter" none)).2 = filterDesk limits := by
  have hclient : Headers.Named (filterDesk limits).client.headers := .nil
  have hdraft : Headers.Named ((filterDesk limits).draft "filter").headers := .nil
  have hbody : ((filterDesk limits).draft "filter").body =
      .ok [(.str "query", .str "\x7b hero \x7d"),
        (.str "variables", .dict [(.str "filter", limits)])] := rfl
  obtain ⟨-, hkept, -⟩ := run_withheld_iff hclient hdraft hbody none
  refine ⟨hclient, hdraft, ⟨_, hbody⟩, hkept (.inDict (.tail _ (.head _)) ?_)⟩
  -- The way to the number leads through two objects, a tuple and a list.
  refine .inDict (.head _) (.inDict (.head _) (.inTuple (.tail _ (.head _)) ?_))
  exact .inList (.head _) (.notFinite rfl)

/-- The body that asks for what a filter lets through. -/
def filterBody (filter : Value) : Entries :=
  [(.str "query", .str "\x7b hero \x7d"), (.str "variables", .dict [(.str "filter", filter)])]

theorem blocked_filterBody_iff {limit : Option Nat} {filter : Value} :
    Json.Blocked limit (.dict (filterBody filter)) ↔ Json.Blocked limit filter := by
  simp [filterBody, Json.blocked_dict_iff, Json.isWritableKey, Json.not_blocked_str]

/-- A filter that has the first whole number with too many digits for a key. -/
def longKey : Value := .dict [(.int (10 ^ Numeral.digitLimit), .null)]

/-- Nothing is in the body but what could be written if no whole number had too many digits. -/
theorem longKey_withheld : ∃ body notice,
    ((filterDesk longKey).draft "filter").body = .ok body ∧ ¬ Json.Blocked none (.dict body) ∧
      (step (filterDesk longKey) (.run "filter" none)).1 = .error notice ∧ notice.kind = .value ∧
      (step (filterDesk longKey) (.run "filter" none)).2 = filterDesk longKey := by
  have hbody : ((filterDesk longKey).draft "filter").body = .ok (filterBody longKey) := rfl
  have hlong : Json.isWritableKey (some Numeral.digitLimit) (.int (10 ^ Numeral.digitLimit)) =
      false := by
    rw [Json.isWritableKey, Json.exceeds_pow (by decide)]
    rfl
  obtain ⟨reason, hpayload⟩ :=
    payload_of_blocked hbody (blocked_filterBody_iff.mpr (.atKey (.head _) hlong))
  have hstep : step (filterDesk longKey) (.run "filter" none) = _ := step_run_of_payload hpayload
  refine ⟨_, _, hbody, ?_, congrArg Prod.fst hstep, rfl, congrArg Prod.snd hstep⟩
  rw [blocked_filterBody_iff]
  simp [Json.blocked_dict_iff, longKey, Json.isWritableKey, Json.exceeds, Json.not_blocked_null]

/-- A desk whose client has a number for the name of a header. -/
def misnamedDesk : Desk :=
  { filterDesk .null with client := { heroClient with headers := [(.int 5, .str "x")] } }

theorem misnamedDesk_withheld : ∃ body notice,
    (misnamedDesk.draft "filter").body = .ok body ∧ ¬ Json.Blocked none (.dict body) ∧
      (step misnamedDesk (.run "filter" none)).1 = .error notice ∧ notice.kind ≠ .value ∧
      (step misnamedDesk (.run "filter" none)).2.wire.sent = [] := by
  have hbody : (misnamedDesk.draft "filter").body = .ok (filterBody .null) := rfl
  exact ⟨_, _, hbody, mt blocked_filterBody_iff.mp Json.not_blocked_null, rfl, by decide, rfl⟩

/-- A run is told that a value is not fit to be sent though nothing is in the body but a whole number
with too many digits. With a number for the name of a header of the client nothing is sent, and the
run is told something else. -/
theorem unblocked_drafts_withheld :
    (Headers.Named (filterDesk longKey).client.headers ∧ ∃ body notice,
      ((filterDesk longKey).draft "filter").body = .ok body ∧ ¬ Json.Blocked none (.dict body) ∧
        (step (filterDesk longKey) (.run "filter" none)).1 = .error notice ∧ notice.kind = .value ∧
        (step (filterDesk longKey) (.run "filter" none)).2 = filterDesk longKey) ∧
    ∃ body notice, (misnamedDesk.draft "filter").body = .ok body ∧ ¬ Json.Blocked none (.dict body) ∧
      (step misnamedDesk (.run "filter" none)).1 = .error notice ∧ notice.kind ≠ .value ∧
      (step misnamedDesk (.run "filter" none)).2.wire.sent = [] :=
  ⟨⟨.nil, longKey_withheld⟩, misnamedDesk_withheld⟩

end SchemaScribe.Client
