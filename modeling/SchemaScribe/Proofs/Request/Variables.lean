import Mathlib.Data.List.Induction
import SchemaScribe.Proofs.Request.Apart

/-! # Variables of a draft at work

The variables of a draft, told by the steps that were taken: a name that is none of those before
opens a place, which it keeps with its form. What is held there is what was set under the name last,
as the later steps have changed it.
-/
namespace SchemaScribe

/-! ## Accounts -/

/-- A way to tell of variables: what a step sets, with the name that it sets it under, and what an
edit makes of what is held under a key. -/
structure Account (α : Type) where
  set? : Workbench → WorkStep → Option (Value × α)
  edited : Workbench → Value → α → WorkStep → α

namespace Account
variable {α : Type} (account : Account α)

/-- What a key holds after a step. -/
def after (bench : Workbench) (key : Value) (held : α) (work : WorkStep) : α :=
  match account.set? bench work with
  | some (name, new) => if key.same name then new else held
  | none => account.edited bench key held work

/-- The variable that a step sets, if its name is none of those that are known. -/
def new? (bench : Workbench) (known : List Value) (work : WorkStep) : Option (Value × α) :=
  (account.set? bench work).filter fun entry => !known.any (·.same entry.1)

/-- The variables that steps set besides those that are known, each with what it holds at the end. -/
def beside (known : List Value) : Workbench → List WorkStep → List (Value × α)
  | _, [] => []
  | bench, work :: later =>
    match account.new? bench known work with
    | some (name, new) =>
      (name, (bench.next work).follow (account.after · name) new later) ::
        beside (name :: known) (bench.next work) later
    | none => beside known (bench.next work) later

/-- The variables of a draft after steps from its beginning. -/
def told (query : String) (steps : List WorkStep) : List (Value × α) :=
  account.beside [] (.opened query) steps

/-! ## One step more -/

theorem new?_perm {known known' : List Value} (h : known.Perm known') (bench : Workbench)
    (work : WorkStep) : account.new? bench known work = account.new? bench known' work := by
  simp only [new?, h.any_eq]

/-- A step more changes what is held, and then may set a new variable. -/
theorem beside_concat (known : List Value) (bench : Workbench) (steps : List WorkStep)
    (work : WorkStep) : account.beside known bench (steps ++ [work]) =
      (account.beside known bench steps).map
          (fun entry => (entry.1, account.after (bench.run steps) entry.1 entry.2 work)) ++
        (account.new? (bench.run steps)
          ((account.beside known bench steps).map Prod.fst ++ known) work).toList := by
  induction steps generalizing known bench with
  | nil =>
    rw [List.nil_append, beside]
    simp only [beside, List.map_nil, List.nil_append]
    cases h : account.new? bench known work <;> simp [Workbench.run, h, Workbench.follow]
  | cons first later ih =>
    simp only [List.cons_append, beside]
    split
    · next name new _ =>
      rw [ih, account.new?_perm List.perm_middle, Workbench.follow_concat]
      rfl
    · exact ih known (bench.next first)

/-- The names that are set can be keys. -/
def Names : Prop :=
  ∀ bench work name new, account.set? bench work = some (name, new) → name.hashable = true

theorem keyed_beside (hnames : account.Names) (known : List Value) (bench : Workbench)
    (steps : List WorkStep) : Entries.Keyed (account.beside known bench steps) ∧
      ∀ entry ∈ account.beside known bench steps, ∀ other ∈ known, other.same entry.1 = false := by
  induction steps generalizing known bench with
  | nil => exact ⟨⟨by simp [beside], .nil⟩, by simp [beside]⟩
  | cons first later ih =>
    simp only [beside]
    split
    · next name new hnew =>
      obtain ⟨hset, hapart⟩ := Option.filter_eq_some_iff.mp hnew
      have hapart : ∀ other ∈ known, other.same name = false := by simpa using hapart
      obtain ⟨hkeyed, hlater⟩ := ih (name :: known) (bench.next first)
      refine ⟨⟨?_, ?_⟩, ?_⟩
      · exact List.forall_mem_cons.mpr ⟨hnames bench first name new hset, hkeyed.hashable⟩
      · exact List.pairwise_cons.mpr
          ⟨fun entry hentry => hlater entry hentry name List.mem_cons_self, hkeyed.once⟩
      · refine List.forall_mem_cons.mpr ⟨hapart, fun entry hentry other hother => ?_⟩
        exact hlater entry hentry other (List.mem_cons_of_mem name hother)
    · exact ih known (bench.next first)

theorem keyed_told (hnames : account.Names) (query : String) (steps : List WorkStep) :
    Entries.Keyed (account.told query steps) :=
  (account.keyed_beside hnames [] _ steps).1

theorem told_concat (query : String) (steps : List WorkStep) (work : WorkStep) :
    account.told query (steps ++ [work]) =
      (account.told query steps).map (fun entry =>
          (entry.1, account.after ((Workbench.opened query).run steps) entry.1 entry.2 work)) ++
        (account.new? ((Workbench.opened query).run steps)
          ((account.told query steps).map Prod.fst) work).toList := by
  rw [told, told, beside_concat, List.append_nil]

/-! ## What is held -/

/-- What is set is held, with whoever else has it, and every change of it counts. -/
def holding : Account Held where
  set? bench
    | .setVariable name given =>
      if name.hashable then
        (bench.take given).toOption.map fun found => (name, found.1)
      else none
    | _ => none
  edited bench _ held
    | .editVariable name path new =>
      match bench.variableChange name path new with
      | .ok change => held.changed change
      | .error _ => held
    | _ => held

theorem names_holding : holding.Names := by
  intro bench work name new h
  cases work with
  | setVariable =>
    obtain ⟨hname, h⟩ := Option.ite_none_right_eq_some.mp h
    obtain ⟨found, -, heq⟩ := Option.map_eq_some_iff.mp h
    cases heq
    exact hname
  | _ => cases h

end Account

namespace Workbench
open Account

variable {bench : Workbench}

/-- A step changes what the variables hold that are there, and may set a new one. -/
theorem bindings_next (ha : Apart bench) (hk : Entries.Keyed bench.bindings) (work : WorkStep) :
    (bench.next work).bindings =
      bench.bindings.map (fun entry => (entry.1, holding.after bench entry.1 entry.2 work)) ++
        (holding.new? bench (bench.bindings.map Prod.fst) work).toList := by
  cases work with
  | setVariable name given =>
    rw [next_setVariable]
    simp only [after, new?, holding]
    cases htake : bench.take given with
    | error fault => cases name.hashable <;> simp [Except.toOption]
    | ok found =>
      cases name.hashable with
      | false => simp
      | true =>
        simp only [if_true, Except.toOption, Option.map_some, hk.put_eq, Option.filter_some,
          List.any_map, Function.comp_def]
        cases bench.bindings.any fun entry => entry.1.same name <;> simp
  | editVariable name path new =>
    rw [next_editVariable]
    simp only [after, new?, holding]
    cases bench.variableChange name path new with
    | error fault => simp
    | ok change => simp [amend]
  | editBody index path new =>
    rcases bench.editBody_cases index path new with ⟨i, body, change, -, hi, hedit, hnext⟩ | ⟨hnext, -⟩
    · have hkept := ha.bindings_changed hi (Held.of_edit hedit).within
      rw [hnext]
      simpa [after, new?, holding, amend] using hkept
    · rw [hnext]
      simp [after, new?, holding]
  | setHeader name value => simp [next_setHeader, after, new?, holding]
  | readBody index => simp [next_readBody, after, new?, holding]
  | makeBody =>
    rw [next_makeBody]
    split <;> simp [after, new?, holding, keepBody]
  | «show» => simp [next_show, after, new?, holding]
  | setOperation name => simp [next, step, after, new?, holding]

/-- The variables of a draft at work are those that its steps tell. -/
theorem bindings_run (query : String) {steps : List WorkStep}
    (hnames : ∀ name, WorkStep.setOperation name ∈ steps → name.numbers = []) :
    ((opened query).run steps).bindings = holding.told query steps := by
  induction steps using List.reverseRecOn with
  | nil => rfl
  | append_singleton steps work ih =>
    have hbefore : ∀ name, WorkStep.setOperation name ∈ steps → name.numbers = [] :=
      fun name hname => hnames name (List.mem_append_left _ hname)
    have hk : Entries.Keyed ((opened query).run steps).bindings :=
      ih hbefore ▸ holding.keyed_told names_holding query steps
    rw [run_concat, bindings_next ((apart_opened query).run hbefore) hk, ih hbefore,
      holding.told_concat]

end Workbench
end SchemaScribe
