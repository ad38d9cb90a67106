import SchemaScribe.Proofs.Endpoint.Sessions
import SchemaScribe.Proofs.Scribe.History

/-! # The sessions of a scribe

A scribe that was given a session neither opens one nor closes it. Without one it opens a session
for each fetch that has an address and closes it before the fetch is over, whatever the server does.
No other step opens or closes any.
-/
namespace SchemaScribe.Scribe

/-- The address that a step fetches from. Every other step has none. -/
def Step.address? (scribe : Scribe) : Step → Option String
  | .fetch url => url.or scribe.url
  | _ => none

/-- A step that needs a session: a fetch that has an address. -/
def Step.asks (scribe : Scribe) (step : Step) : Bool := (step.address? scribe).isSome

/-! ## Calls -/

theorem sessions_ask (scribe : Scribe) (url : String) (wire : Wire) :
    (scribe.ask url wire).2.sessions =
      (wire.opened + (if scribe.ownsSessions then 1 else 0),
        wire.closed + if scribe.ownsSessions then 1 else 0) := by
  let client := scribe.client url
  obtain ⟨hopened, hclosed⟩ := Prod.mk.inj
    ((client.sessions_run scribe.draft none (client.start wire)).trans (client.sessions_start wire))
  show (client.close (client.run scribe.draft none (client.start wire)).2).sessions = _
  rw [client.sessions_close, hopened, hclosed]
  rfl

/-- A fetch has the sessions of its one question, however the answer is taken. -/
theorem wire_fetch (scribe : Scribe) (url : Option String) (around : Surroundings) :
    (scribe.fetch url around).2.wire =
      match url.or scribe.url with
      | none => around.wire
      | some url => (scribe.ask url around.wire).2 := by
  unfold fetch
  cases url.or scribe.url with
  | none => rfl
  | some url =>
    dsimp only [Surroundings.note]
    split <;> rfl

theorem wire_build (scribe : Scribe) (given : Option Value) (around : Surroundings) :
    (scribe.build given around).2.wire = around.wire := by
  unfold build
  split
  · rfl
  · split <;> rfl

theorem wire_write (scribe : Scribe) (path : String) (given : Option Value)
    (around : Surroundings) : (scribe.write path given around).2.wire = around.wire := by
  unfold write
  split
  · rfl
  · exact wire_writeRendering ..

/-! ## Steps -/

/-- A scribe with the address of another, and sessions of its own if the other one has. -/
structure Serves (scribe other : Scribe) : Prop where
  url : other.url = scribe.url
  ownsSessions : other.ownsSessions = scribe.ownsSessions

theorem Serves.asks_eq {scribe other : Scribe} (h : Serves scribe other) (step : Step) :
    step.asks other = step.asks scribe := by
  cases step with
  | fetch url => rw [Step.asks, Step.asks, Step.address?, Step.address?, h.url]
  | _ => rfl

theorem serves_replaceResult (scribe : Scribe) (path : Path) (value : Value) (changed : Entries) :
    Serves scribe (scribe.replaceResult path value changed) := by
  unfold replaceResult
  split <;> exact ⟨rfl, rfl⟩

theorem serves_editResult {scribe changed : Scribe} {path : Path} {value : Value}
    (h : scribe.editResult path value = .ok changed) : Serves scribe changed := by
  unfold editResult at h
  dsimp only at h
  split at h
  · cases h
  · cases h
    exact serves_replaceResult ..
  · cases h

theorem Turn.serves {scribe next : Scribe} {step : Step} {answer : Except ScribeFault Answer}
    (h : Turn scribe step answer next) (hedit : step.isEdit = false) : Serves scribe next := by
  cases h with
  | edited => cases hedit
  | _ => exact ⟨rfl, rfl⟩

theorem around_settle {α : Type} (desk : Desk) (answer : α → Answer)
    (outcome : Except ScribeFault (α × Scribe)) (around : Surroundings) :
    (settle desk answer outcome around).2.around = around := by
  cases outcome <;> rfl

namespace Desk
variable (desk : Desk)

/-- The desk after steps, of which some may have failed. -/
def after (steps : List Step) : Desk :=
  steps.foldl (fun desk step => (Scribe.step desk step).2) desk

theorem after_cons (step : Step) (steps : List Step) :
    desk.after (step :: steps) = (Scribe.step desk step).2.after steps := rfl

theorem serves_step (step : Step) : Serves desk.scribe (Scribe.step desk step).2.scribe := by
  cases hedit : step.isEdit with
  | false => exact (Call.turn { desk, step }).serves hedit
  | true =>
    cases step with
    | editResult path value =>
      simp only [Scribe.step]
      cases hchanged : desk.scribe.editResult path value with
      | error fault => exact ⟨rfl, rfl⟩
      | ok changed => exact serves_editResult hchanged
    | _ => cases hedit

theorem serves_after (steps : List Step) : Serves desk.scribe (desk.after steps).scribe := by
  induction steps generalizing desk with
  | nil => exact ⟨rfl, rfl⟩
  | cons step rest ih =>
    have hstep : Serves desk.scribe (Scribe.step desk step).2.scribe := desk.serves_step step
    have hrest := ih (Scribe.step desk step).2
    exact ⟨hrest.url.trans hstep.url, hrest.ownsSessions.trans hstep.ownsSessions⟩

theorem wire_step (step : Step) :
    (Scribe.step desk step).2.around.wire =
      match step.address? desk.scribe with
      | none => desk.around.wire
      | some url => (desk.scribe.ask url desk.around.wire).2 := by
  cases step with
  | add name value =>
    simp only [Scribe.step, Step.address?, around_settle]
  | fetch url =>
    simp only [Scribe.step, Step.address?, around_settle]
    exact desk.scribe.wire_fetch url desk.around
  | build given =>
    simp only [Scribe.step, Step.address?, around_settle]
    exact desk.scribe.wire_build given desk.around
  | write path given =>
    simp only [Scribe.step, Step.address?, around_settle]
    exact desk.scribe.wire_write path given desk.around
  | editResult path value =>
    simp only [Scribe.step, Step.address?, around_settle]

/-- A step opens and closes one session if it needs one that it was not given, and else none. -/
theorem sessions_step (step : Step) :
    let count := if desk.scribe.ownsSessions && step.asks desk.scribe then 1 else 0
    (Scribe.step desk step).2.around.wire.sessions =
      (desk.around.wire.opened + count, desk.around.wire.closed + count) := by
  have hwire := desk.wire_step step
  cases haddress : step.address? desk.scribe with
  | none =>
    have hasks : step.asks desk.scribe = false := by rw [Step.asks, haddress, Option.isSome_none]
    rw [haddress] at hwire
    simp only [hwire, hasks, Bool.and_false]
    rfl
  | some url =>
    have hasks : step.asks desk.scribe = true := by rw [Step.asks, haddress, Option.isSome_some]
    rw [haddress] at hwire
    simp only [hwire, hasks, Bool.and_true, sessions_ask]

/-- Whatever the server does, as many sessions were closed as opened: one for each fetch that had an
address, unless the scribe was given a session. -/
theorem sessions_after (steps : List Step) :
    let count := if desk.scribe.ownsSessions then steps.countP (Step.asks desk.scribe) else 0
    (desk.after steps).around.wire.sessions =
      (desk.around.wire.opened + count, desk.around.wire.closed + count) := by
  induction steps generalizing desk with
  | nil => simp [after, Wire.sessions]
  | cons step rest ih =>
    have hserves : Serves desk.scribe (Scribe.step desk step).2.scribe := desk.serves_step step
    have hasks : Step.asks (Scribe.step desk step).2.scribe = Step.asks desk.scribe :=
      funext hserves.asks_eq
    obtain ⟨hopened, hclosed⟩ := Prod.mk.inj (desk.sessions_step step)
    dsimp only
    rw [after_cons, ih, hserves.ownsSessions, hasks, hopened, hclosed, List.countP_cons]
    cases desk.scribe.ownsSessions with
    | false => rfl
    | true =>
      simp only [Bool.true_and, if_true]
      rw [Nat.add_assoc, Nat.add_assoc, Nat.add_comm (if step.asks desk.scribe = true then 1 else 0)]

end Desk

/-- Sessions are opened and closed in pairs, by those who need them. At any point of the work of a
scribe, with any server, a fetch that has an address opens one session and closes it, whatever comes
of it, unless a session was given; every other step opens and closes none. A client closes the
session that it opened for itself once for each step that leaves it, and one that was given never. -/
theorem sessions_paired :
    (∀ (desk : Desk) (before : List Step) (step : Step),
      let here := desk.after before
      let next := (Scribe.step here step).2
      let count := if desk.scribe.ownsSessions && step.asks desk.scribe then 1 else 0
      next.around.wire.opened = here.around.wire.opened + count ∧
        next.around.wire.closed = here.around.wire.closed + count) ∧
    (∀ (desk : Desk) (steps : List Step),
      let count := if desk.scribe.ownsSessions then steps.countP (Step.asks desk.scribe) else 0
      (desk.after steps).around.wire.opened = desk.around.wire.opened + count ∧
        (desk.after steps).around.wire.closed = desk.around.wire.closed + count) ∧
    ∀ (client : Client) (drafts : List (String × Draft)) (wire : Wire) (steps : List Client.Step),
      let desk : Client.Desk := { client, drafts, wire := client.start wire }
      (desk.after steps).wire.opened = wire.opened + (if client.ownsSession then 1 else 0) ∧
        (desk.after steps).wire.closed =
          wire.closed + if client.ownsSession then steps.countP Client.Step.leaves else 0 := by
  refine ⟨fun desk before step => ?_, fun desk steps => ?_, fun client drafts wire steps => ?_⟩
  · have hserves : Serves desk.scribe (desk.after before).scribe := desk.serves_after before
    have hsessions := (desk.after before).sessions_step step
    dsimp only at hsessions
    rw [hserves.ownsSessions, hserves.asks_eq] at hsessions
    exact Prod.mk.inj hsessions
  · exact Prod.mk.inj (desk.sessions_after steps)
  · obtain ⟨hopened, hclosed⟩ := Prod.mk.inj (client.sessions_start wire)
    let desk : Client.Desk := { client, drafts, wire := client.start wire }
    obtain ⟨hopenedAfter, hclosedAfter⟩ := Prod.mk.inj (desk.sessions_after steps)
    exact ⟨hopenedAfter.trans hopened, hclosedAfter.trans (by rw [hclosed])⟩

end SchemaScribe.Scribe
