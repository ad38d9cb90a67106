import SchemaScribe.Proofs.Endpoint.Independence

/-! # The sessions of a client

A client that was given its session never closes it. One that opened a session for itself closes it
each time that it is closed or left, and at no other time: sending, however it ends, leaves the
sessions alone.
-/
namespace SchemaScribe

/-- How many sessions were opened on a wire, and how often one was closed. -/
def Wire.sessions (wire : Wire) : Nat × Nat := (wire.opened, wire.closed)

@[simp] theorem Wire.sessions_afterPost (wire : Wire) (request : Request) :
    (wire.afterPost request).sessions = wire.sessions := rfl

namespace Client
variable (client : Client) (draft : Draft) (type : Option ResultType) (wire : Wire)

theorem sessions_start :
    (client.start wire).sessions =
      (wire.opened + (if client.ownsSession then 1 else 0), wire.closed) := by
  unfold start
  split <;> rfl

theorem sessions_close :
    (client.close wire).sessions =
      (wire.opened, wire.closed + if client.ownsSession then 1 else 0) := by
  unfold close
  split <;> rfl

theorem sessions_execute : (client.execute draft wire).2.sessions = wire.sessions := by
  cases hrequest : client.request draft with
  | error fault => rw [execute_of_fault hrequest]
  | ok request =>
    rw [execute_of_request hrequest]
    exact wire.sessions_afterPost request

theorem sessions_run : (client.run draft type wire).2.sessions = wire.sessions :=
  client.sessions_execute draft wire

/-- A step that closes the client or leaves it. A block in which the client is used is left at its
end or behind the first step in it that fails. -/
def Step.leaves : Step → Bool
  | .close | .visit => true
  | _ => false

namespace Desk
variable (desk : Desk)

theorem ownsSession_step (step : Step) :
    (Client.step desk step).2.client.ownsSession = desk.client.ownsSession := by
  cases step with
  | run | execute | setOperation | close | visit => rfl
  | setVariable | setHeader =>
    exact settle_cases (P := fun next => next.client.ownsSession = desk.client.ownsSession) rfl
      fun _ _ => rfl
  | setClientHeader name value =>
    refine settle_cases (P := fun next => next.client.ownsSession = desk.client.ownsSession) rfl
      fun changed hc => ?_
    rw [setHeader_eq_some hc]

theorem sessions_step (step : Step) :
    (Client.step desk step).2.wire.sessions = (desk.wire.opened,
      desk.wire.closed + if desk.client.ownsSession && step.leaves then 1 else 0) := by
  cases hs : step.leaves with
  | true =>
    rw [Bool.and_true]
    cases step with
    | close | visit => exact desk.client.sessions_close desk.wire
    | _ => cases hs
  | false =>
    rw [Bool.and_false, if_neg Bool.false_ne_true, Nat.add_zero]
    cases step with
    | close | visit => cases hs
    | run name type => exact desk.client.sessions_run (desk.draft name) type desk.wire
    | execute name => exact desk.client.sessions_execute (desk.draft name) desk.wire
    | setOperation => rfl
    | setVariable | setHeader | setClientHeader =>
      exact settle_cases (P := fun next => next.wire.sessions = desk.wire.sessions) rfl
        fun _ _ => rfl

/-- After any steps the session was closed once for each of them that leaves the client, if it is
the client's own. -/
theorem sessions_after (steps : List Step) :
    (desk.after steps).wire.sessions = (desk.wire.opened,
      desk.wire.closed + if desk.client.ownsSession then steps.countP Step.leaves else 0) := by
  induction steps generalizing desk with
  | nil => simp [after, Wire.sessions]
  | cons step rest ih =>
    obtain ⟨hopened, hclosed⟩ := Prod.mk.inj (desk.sessions_step step)
    rw [after_cons, ih, ownsSession_step, hopened, hclosed, List.countP_cons]
    cases desk.client.ownsSession with
    | false => rfl
    | true =>
      simp only [Bool.true_and, if_true]
      rw [Nat.add_assoc, Nat.add_comm (if step.leaves = true then 1 else 0)]

end Desk
end Client
end SchemaScribe
