import SchemaScribe.Endpoint.Desk
import SchemaScribe.Proofs.Endpoint.Reception

/-! # Independent calls

A call sends its draft as it now is, under the headers that the client now has, and takes one reply.
What was sent before, what came back and what failed leave no trace: a new client would send the
same, and so would this one had it made no call before.
-/
namespace SchemaScribe.Client

/-- The draft that a call sends. Every other step sends none. -/
def Step.sends? : Step → Option String
  | .run name _ | .execute name => some name
  | _ => none

def Step.isCall (step : Step) : Bool := step.sends?.isSome

/-- A step that sets no header, or one whose name is a text. -/
def Step.Named : Step → Prop
  | .setHeader _ name _ | .setClientHeader name _ => name.isText = true
  | _ => True

/-- A call takes one reply at most. -/
theorem length_replies_execute (client : Client) (draft : Draft) (wire : Wire) :
    wire.replies.length ≤ (client.execute draft wire).2.replies.length + 1 := by
  cases hrequest : client.request draft with
  | error fault =>
    rw [execute_of_fault hrequest]
    exact Nat.le_succ _
  | ok request =>
    rw [execute_of_request hrequest]
    simp only [Wire.afterPost, List.length_tail]
    omega

namespace Desk

/-- All headers have texts for names. -/
structure Named (desk : Desk) : Prop where
  client : Headers.Named desk.client.headers
  drafts : ∀ entry ∈ desk.drafts, Headers.Named entry.2.headers

/-- Desks that differ in nothing but their wires. -/
structure Agrees (desk other : Desk) : Prop where
  client : desk.client = other.client
  drafts : desk.drafts = other.drafts

/-- The desk after steps, of which some may have failed. -/
def after (desk : Desk) (steps : List Step) : Desk :=
  steps.foldl (fun desk step => (Client.step desk step).2) desk

variable {desk other : Desk} {name : String}

theorem after_cons (desk : Desk) (step : Step) (steps : List Step) :
    desk.after (step :: steps) = (Client.step desk step).2.after steps := rfl

theorem settle_cases {α : Type} {changed : Option α} {answer : Answer} {take : α → Desk}
    {P : Desk → Prop} (hkept : P desk) (htaken : ∀ a, changed = some a → P (take a)) :
    P (desk.settle answer take changed).2 := by
  cases changed with
  | none => exact hkept
  | some a => exact htaken a rfl

/-! ## One step -/

/-- A call changes the wire alone. -/
theorem step_call {call : Step} (h : call.sends? = some name) :
    (step desk call).2 =
      { desk with wire := (desk.client.execute (desk.draft name) desk.wire).2 } := by
  cases call with
  | run | execute =>
    cases h
    rfl
  | _ => cases h

theorem agrees_step_call {call : Step} (h : call.isCall = true) :
    (step desk call).2.Agrees desk := by
  obtain ⟨name, hname⟩ := Option.isSome_iff_exists.mp h
  rw [step_call hname]
  exact ⟨rfl, rfl⟩

theorem Agrees.trans {third : Desk} (h : desk.Agrees other) (ho : other.Agrees third) :
    desk.Agrees third :=
  ⟨h.client.trans ho.client, h.drafts.trans ho.drafts⟩

theorem Agrees.settle {α : Type} {changed : Option α} {answer : Answer} {take takeOther : α → Desk}
    (h : desk.Agrees other) (ht : ∀ a, (take a).Agrees (takeOther a)) :
    (desk.settle answer take changed).2.Agrees (other.settle answer takeOther changed).2 := by
  cases changed with
  | none => exact h
  | some a => exact ht a

/-- What a step makes of a client and its drafts does not depend on the wire. -/
theorem Agrees.step (h : desk.Agrees other) (step : Step) :
    (Client.step desk step).2.Agrees (Client.step other step).2 := by
  obtain ⟨client, drafts, wire⟩ := desk
  obtain ⟨_, _, otherWire⟩ := other
  obtain ⟨rfl, rfl⟩ := h
  cases step with
  | run | execute | setOperation | close | visit => exact ⟨rfl, rfl⟩
  | setVariable | setHeader => exact Agrees.settle ⟨rfl, rfl⟩ fun draft => ⟨rfl, rfl⟩
  | setClientHeader => exact Agrees.settle ⟨rfl, rfl⟩ fun client => ⟨rfl, rfl⟩

/-- The client on the desk has the address and the patience of another. -/
structure Serves (client : Client) (desk : Desk) : Prop where
  url : desk.client.url = client.url
  timeout : desk.client.timeout = client.timeout

theorem Serves.step {client : Client} (h : Serves client desk) (step : Step) :
    Serves client (Client.step desk step).2 := by
  cases step with
  | run | execute | setOperation | close | visit => exact ⟨h.url, h.timeout⟩
  | setVariable | setHeader => exact settle_cases h fun draft _ => ⟨h.url, h.timeout⟩
  | setClientHeader name value =>
    refine settle_cases h fun changed hc => ?_
    rw [setHeader_eq_some hc]
    exact ⟨h.url, h.timeout⟩

theorem Named.draft (h : desk.Named) (name : String) : Headers.Named (desk.draft name).headers := by
  unfold Desk.draft
  cases hl : desk.drafts.lookup name with
  | none => exact .nil
  | some draft =>
    obtain ⟨before, after, hdrafts, -⟩ := List.lookup_eq_some_iff.mp hl
    exact h.drafts (name, draft) (by simp [hdrafts])

theorem Named.replaceDraft {draft : Draft} (h : desk.Named) (hd : Headers.Named draft.headers) :
    (desk.replaceDraft name draft).Named := by
  refine ⟨h.client, fun entry he => ?_⟩
  obtain ⟨old, hold, rfl⟩ := List.mem_map.mp he
  dsimp only
  split
  · exact hd
  · exact h.drafts old hold

theorem Named.step (h : desk.Named) {step : Step} (hs : step.Named) :
    (Client.step desk step).2.Named := by
  cases step with
  | run | execute | close | visit => exact ⟨h.client, h.drafts⟩
  | setOperation draft name => exact h.replaceDraft (h.draft draft)
  | setVariable draft name value =>
    refine settle_cases h fun changed hc => h.replaceDraft ?_
    rw [Draft.setVariable_eq_some hc]
    exact h.draft draft
  | setHeader draft name value =>
    refine settle_cases h fun changed hc => h.replaceDraft ?_
    rw [Draft.setHeader_eq_some hc]
    exact (h.draft draft).put hs value
  | setClientHeader name value =>
    refine settle_cases h fun changed hc => ⟨?_, h.drafts⟩
    rw [setHeader_eq_some hc]
    exact h.client.put hs value

theorem replies_step_of_change {change : Step} (h : change.sends? = none) :
    (step desk change).2.wire.replies = desk.wire.replies := by
  cases change with
  | run | execute => cases h
  | setOperation => rfl
  | setVariable | setHeader | setClientHeader =>
    exact settle_cases (P := fun next => next.wire.replies = desk.wire.replies) rfl fun _ _ => rfl
  | close | visit => exact desk.client.replies_close desk.wire

/-- A step takes one reply at most, and none unless it is a call. -/
theorem length_replies_step (desk : Desk) (step : Step) :
    desk.wire.replies.length ≤
      (Client.step desk step).2.wire.replies.length + if step.isCall then 1 else 0 := by
  cases hs : step.sends? with
  | some name =>
    rw [step_call hs, Step.isCall, hs]
    exact length_replies_execute desk.client (desk.draft name) desk.wire
  | none =>
    rw [replies_step_of_change hs]
    exact Nat.le_add_right _ _

/-! ## Steps in a row -/

theorem Agrees.after (h : desk.Agrees other) (steps : List Step) :
    (desk.after steps).Agrees (other.after steps) := by
  induction steps generalizing desk other with
  | nil => exact h
  | cons step rest ih => exact ih (h.step step)

/-- Calls leave nothing behind for the steps after them. -/
theorem Agrees.after_changes (h : desk.Agrees other) (steps : List Step) :
    (desk.after steps).Agrees (other.after (steps.filter fun step => !step.isCall)) := by
  induction steps generalizing desk other with
  | nil => exact h
  | cons step rest ih =>
    cases hs : step.isCall with
    | true =>
      -- The call is left out on the other side, where the desk still agrees.
      rw [List.filter_cons_of_neg (by simp [hs])]
      exact ih ((agrees_step_call hs).trans h)
    | false =>
      rw [List.filter_cons_of_pos (by simp [hs])]
      exact ih (h.step step)

theorem Serves.after {client : Client} (h : Serves client desk) (steps : List Step) :
    Serves client (desk.after steps) := by
  induction steps generalizing desk with
  | nil => exact h
  | cons step rest ih => exact ih (h.step step)

theorem Named.after (h : desk.Named) {steps : List Step} (hs : ∀ step ∈ steps, step.Named) :
    (desk.after steps).Named := by
  induction steps generalizing desk with
  | nil => exact h
  | cons step rest ih =>
    obtain ⟨hstep, hrest⟩ := List.forall_mem_cons.mp hs
    exact ih (h.step hstep) hrest

theorem length_replies_after (desk : Desk) (steps : List Step) :
    desk.wire.replies.length ≤
      (desk.after steps).wire.replies.length + steps.countP Step.isCall := by
  induction steps generalizing desk with
  | nil => exact Nat.le_refl _
  | cons step rest ih =>
    have hstep := length_replies_step desk step
    have hrest := ih (Client.step desk step).2
    rw [after_cons, List.countP_cons]
    omega

end Desk

/-! ## A call after steps -/

/-- A reply is left for a call, if there were more replies than calls before it. -/
theorem exists_reply {desk : Desk} {before : List Step}
    (h : before.countP Step.isCall < desk.wire.replies.length) :
    ∃ reply rest, (desk.after before).wire.replies = reply :: rest := by
  have hleft := desk.length_replies_after before
  cases hreplies : (desk.after before).wire.replies with
  | nil =>
    rw [hreplies, List.length_nil] at hleft
    omega
  | cons reply rest => exact ⟨reply, rest, rfl⟩

/-- What a request depends on. -/
theorem request_congr {client fresh : Client} (draft : Draft) (hurl : fresh.url = client.url)
    (htimeout : fresh.timeout = client.timeout) (hheaders : fresh.headers = client.headers) :
    fresh.request draft = client.request draft := by
  simp only [request, hurl, htimeout, hheaders]

/-- The request of a call and the reply that it takes. Every client with the same headers would send
that request for the draft. -/
theorem exists_sent {desk : Desk} {call : Step} {name : String}
    (hsends : call.sends? = some name) (hdesk : desk.Named) {data : String}
    (hdata : payload (desk.draft name) = .ok data) {reply : Reply}
    {rest : List Reply} (hreply : desk.wire.replies = reply :: rest) :
    ∃ request, request.data = data ∧
      (step desk call).2.wire.sent = desk.wire.sent ++ [request] ∧
      desk.wire.replies = reply :: (step desk call).2.wire.replies ∧
      ∀ (fresh : Client) (wire : Wire), fresh.url = desk.client.url →
        fresh.timeout = desk.client.timeout → fresh.headers = desk.client.headers →
        (fresh.execute (desk.draft name) wire).2.sent = wire.sent ++ [request] := by
  have hnames : Headers.misnamed? (desk.client.headers ++ (desk.draft name).headers) = none :=
    (hdesk.client.append (hdesk.draft name)).misnamed?
  let request : Request :=
    { url := desk.client.url, data, timeout := desk.client.timeout
      headers := Headers.merged desk.client.headers (desk.draft name).headers }
  have hrequest : desk.client.request (desk.draft name) = .ok request :=
    request_eq_ok hdata hnames
  have hwire : (step desk call).2.wire = desk.wire.afterPost request := by
    rw [Desk.step_call hsends, execute_of_request hrequest]
  refine ⟨request, rfl, by rw [hwire]; rfl, ?_, fun fresh wire hurl htimeout hheaders => ?_⟩
  · simp [hwire, Wire.afterPost, hreply]
  · have hfresh := request_congr (desk.draft name) hurl htimeout hheaders
    rw [execute_of_request (hfresh.trans hrequest)]
    rfl

theorem wire_of_no_payload {desk : Desk} {call : Step} {name : String}
    (hsends : call.sends? = some name) {fault : ClientFault}
    (h : payload (desk.draft name) = .error fault) : (step desk call).2.wire = desk.wire := by
  rw [Desk.step_call hsends, execute_of_fault (request_of_payload h)]

/-- A call changes neither the client nor a draft. If the body of its draft can be written, it sends
the one request that a new client with the same headers would send for the draft, and takes one
reply; otherwise it leaves the wire as it is. The client and the drafts are those that the other
steps alone would have left. -/
theorem call_independent {desk : Desk} {before : List Step} {call : Step} {name : String}
    (hsends : call.sends? = some name) (hdesk : desk.Named)
    (hsteps : ∀ step ∈ before, step.Named)
    (hreplies : before.countP Step.isCall < desk.wire.replies.length) :
    let here := desk.after before
    let next := (step here call).2
    let draft := here.draft name
    next.Agrees here ∧
    (∀ data, payload draft = .ok data →
      ∃ request reply, request.data = data ∧ next.wire.sent = here.wire.sent ++ [request] ∧
        here.wire.replies = reply :: next.wire.replies ∧
        ∀ (fresh : Client) (wire : Wire), fresh.url = desk.client.url →
          fresh.timeout = desk.client.timeout → fresh.headers = here.client.headers →
          (fresh.execute draft wire).2.sent = wire.sent ++ [request]) ∧
    (∀ fault, payload draft = .error fault → next.wire = here.wire) ∧
    ∀ wire, here.Agrees ({ desk with wire }.after (before.filter fun step => !step.isCall)) := by
  intro here next draft
  refine ⟨Desk.agrees_step_call (by simp [Step.isCall, hsends]), fun data hdata => ?_,
    fun fault hfault => wire_of_no_payload hsends hfault, fun wire => ?_⟩
  · obtain ⟨reply, rest, hreply⟩ : ∃ reply rest, here.wire.replies = reply :: rest :=
      exists_reply hreplies
    obtain ⟨request, hbody, hsent, htaken, hfresh⟩ :=
      exists_sent hsends (hdesk.after hsteps) hdata hreply
    have hserves : Desk.Serves desk.client here := Desk.Serves.after ⟨rfl, rfl⟩ before
    refine ⟨request, reply, hbody, hsent, htaken, fun fresh wire hurl htimeout hheaders => ?_⟩
    exact hfresh fresh wire (hurl.trans hserves.url.symm) (htimeout.trans hserves.timeout.symm)
      hheaders
  · have hagrees : desk.Agrees { desk with wire } := ⟨rfl, rfl⟩
    exact hagrees.after_changes before

/-- A desk whose first call will not get through. -/
def heroDesk : Desk :=
  { client := heroClient, drafts := [("hero", hero)]
    wire := { replies := [Wire.silence, .failure "Timeout" "read timed out"] } }

def heroSteps : List Step :=
  [.run "hero" none, .setVariable "hero" (.str "episode") (.str "JEDI"),
   .setClientHeader (.str "Authorization") (.str "Bearer 1")]

theorem call_independent_after_failure :
    (Step.execute "hero").sends? = some "hero" ∧ heroDesk.Named ∧
      (∀ step ∈ heroSteps, step.Named) ∧
      heroSteps.countP Step.isCall < heroDesk.wire.replies.length ∧
      ∃ request, (step (heroDesk.after heroSteps) (.execute "hero")).2.wire.sent =
        (heroDesk.after heroSteps).wire.sent ++ [request] := by
  have hsends : (Step.execute "hero").sends? = some "hero" := rfl
  have hdesk : heroDesk.Named := by
    constructor <;> simp [heroDesk, heroClient, hero, Headers.Named, Value.isText]
  have hsteps : ∀ step ∈ heroSteps, step.Named := by
    simp [heroSteps, Step.Named, Value.isText]
  have hreplies : heroSteps.countP Step.isCall < heroDesk.wire.replies.length := by decide
  obtain ⟨-, hsent, -⟩ := call_independent hsends hdesk hsteps hreplies
  obtain ⟨request, -, -, hrequest, -⟩ := hsent _ rfl
  exact ⟨hsends, hdesk, hsteps, hreplies, request, hrequest⟩

end SchemaScribe.Client
