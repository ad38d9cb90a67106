import SchemaScribe.Proofs.Request.Held
import SchemaScribe.Request.Workbench

/-! # Steps at the workbench

Runs of steps, and what a single step can do: it fails and changes nothing, or it does the one thing
that it is for.
-/
namespace SchemaScribe
namespace Workbench
open Success Value

/-- The bench after a step. A step that fails changes nothing. -/
def next (bench : Workbench) (work : WorkStep) : Workbench :=
  match bench.step work with
  | .ok (_, changed) => changed
  | .error _ => bench

def run (bench : Workbench) (steps : List WorkStep) : Workbench := steps.foldl next bench

/-- The bench of a new draft. -/
def opened (query : String) : Workbench := { query }

theorem run_append (bench : Workbench) (before after : List WorkStep) :
    bench.run (before ++ after) = (bench.run before).run after := List.foldl_append

theorem run_concat (bench : Workbench) (steps : List WorkStep) (work : WorkStep) :
    bench.run (steps ++ [work]) = (bench.run steps).next work := run_append bench steps [work]

/-- What becomes of something in a run of steps, told step by step. -/
def follow {α : Type} (after : Workbench → α → WorkStep → α) : Workbench → α → List WorkStep → α
  | _, held, [] => held
  | bench, held, work :: later => follow after (bench.next work) (after bench held work) later

theorem follow_concat {α : Type} (after : Workbench → α → WorkStep → α) (bench : Workbench)
    (held : α) (steps : List WorkStep) (work : WorkStep) :
    bench.follow after held (steps ++ [work]) =
      after (bench.run steps) (bench.follow after held steps) work := by
  induction steps generalizing bench held with
  | nil => rfl
  | cons first later ih => exact ih (bench.next first) _

/-- The number of the kept body that an index leads to. -/
def addressed? (count : Nat) (index : Int) : Option Nat :=
  (Value.index (.int index)).toOption.bind (Value.position? count)

/-- The change that an edit of a variable makes. -/
def variableChange (bench : Workbench) (name : Value) (path : List Value) (new : Held) :
    Except PathFault Held.Change := do
  Held.edit (new.moved bench.fresh) path (← bench.binding name)

variable {bench : Workbench} {name : Value} {given : Given} {held new : Held} {index : Int}
  {path : List Value} {i : Nat} {body : Held} {change : Held.Change}

theorem body_eq_ok : bench.body index = .ok body ↔
    ∃ i, addressed? bench.bodies.length index = some i ∧ bench.bodies[i]? = some body := by
  rw [Workbench.body, addressed?, bind_eq_ok]
  cases Value.index (.int index) with
  | error fault => simp [Except.toOption]
  | ok index =>
    simp only [Except.toOption, Except.ok.injEq, exists_eq_left', Option.bind_some]
    constructor
    · intro h
      split at h
      next found hfound =>
        cases h
        exact Option.bind_eq_some_iff.mp hfound
      · cases h
    · intro h
      rw [Option.bind_eq_some_iff.mpr h]
      rfl

/-! ## Single steps -/

section Single
attribute [local simp] next step

theorem next_setVariable (bench : Workbench) (name : Value) (given : Given) :
    bench.next (.setVariable name given) =
      match bench.take given with
      | .ok (held, fresh) =>
        if name.hashable then { bench with bindings := Entries.put name held bench.bindings, fresh }
        else bench
      | .error _ => bench := by
  cases htake : bench.take given with
  | error fault => simp [htake]
  | ok found => cases hname : name.hashable <;> simp [htake, hname]

theorem next_setHeader (bench : Workbench) (name value : Value) :
    bench.next (.setHeader name value) = { bench with
      headers := if name.hashable then Entries.put name value bench.headers else bench.headers } := by
  cases hname : name.hashable <;> simp [hname]

theorem next_makeBody (bench : Workbench) : bench.next .makeBody =
    if bench.draft.body.isOk then bench.keepBody else bench := by
  cases hbody : bench.draft.body <;> simp [hbody, Except.isOk, Except.toBool]

theorem next_readBody (bench : Workbench) (index : Int) : bench.next (.readBody index) = bench := by
  cases hbody : bench.body index <;> simp [hbody]

theorem next_show (bench : Workbench) : bench.next .show = bench := by
  cases htext : bench.text <;> simp [htext, Except.map]

theorem next_editVariable (bench : Workbench) (name : Value) (path : List Value) (new : Held) :
    bench.next (.editVariable name path new) =
      match bench.variableChange name path new with
      | .ok change => bench.amend change new.bound
      | .error _ => bench := by
  have hedits : bench.editVariable name path new =
      (bench.variableChange name path new).map (bench.amend · new.bound) := by
    rw [editVariable, variableChange]
    cases bench.binding name with
    | error fault => rfl
    | ok held => cases hedit : Held.edit (new.moved bench.fresh) path held <;> simp [hedit, Except.map]
  cases hchange : bench.variableChange name path new <;> simp [hedits, hchange, Except.map]

end Single

/-- An edit of a body makes a change of the body that its index leads to, or nothing changes. -/
theorem editBody_cases (bench : Workbench) (index : Int) (path : List Value) (new : Held) :
    (∃ i body change, addressed? bench.bodies.length index = some i ∧
      bench.bodies[i]? = some body ∧ Held.edit (new.moved bench.fresh) path body = .ok change ∧
      bench.next (.editBody index path new) = bench.amend change new.bound) ∨
    bench.next (.editBody index path new) = bench ∧
      ∀ i body change, addressed? bench.bodies.length index = some i →
        bench.bodies[i]? = some body → Held.edit (new.moved bench.fresh) path body ≠ .ok change := by
  rw [next, step, editBody]
  cases hbody : bench.body index with
  | error fault =>
    refine .inr ⟨rfl, fun i body change haddressed hi => ?_⟩
    rw [body_eq_ok.mpr ⟨i, haddressed, hi⟩] at hbody
    cases hbody
  | ok body =>
    obtain ⟨i, haddressed, hi⟩ := body_eq_ok.mp hbody
    rw [ok_bind]
    cases hchange : Held.edit (new.moved bench.fresh) path body with
    | ok change => exact .inl ⟨i, body, change, haddressed, hi, hchange, rfl⟩
    | error fault =>
      refine .inr ⟨rfl, fun j other change hj hother => ?_⟩
      obtain rfl := Option.some.inj (haddressed.symm.trans hj)
      obtain rfl := Option.some.inj (hi.symm.trans hother)
      rw [hchange]
      exact nofun

/-! ## What is given -/

theorem mem_of_binding (h : bench.binding name = .ok held) : held ∈ bench.bindings.map Prod.snd := by
  rw [binding] at h
  split at h
  · cases h
  split at h
  next hfound =>
    cases h
    exact Held.mem_of_value? hfound
  · cases h

/-- What is given is new throughout, or it is what a variable has inside, or a leaf. -/
theorem take_eq_ok {fresh : Nat} (h : bench.take given = .ok (held, fresh)) :
    (∃ new, given = .new new ∧ held = new.moved bench.fresh ∧ fresh = bench.fresh + new.bound) ∨
      fresh = bench.fresh ∧ ((∃ entry ∈ bench.bindings, held.Inside entry.2) ∨ ∃ l, held = .leaf l) := by
  cases given with
  | new new =>
    cases h
    exact .inl ⟨new, rfl, rfl, rfl⟩
  | held name path =>
    obtain ⟨start, hstart, h⟩ := bind_eq_ok.mp h
    obtain ⟨found, hfound, h⟩ := bind_eq_ok.mp h
    cases h
    obtain ⟨entry, hentry, rfl⟩ := List.mem_map.mp (mem_of_binding hstart)
    exact .inr ⟨rfl, (Held.path_cases hfound).imp_left fun hinside => ⟨entry, hentry, hinside⟩⟩

/-- What is given has numbers that variables have already, or some that nothing had. -/
theorem take_cases {fresh : Nat} (h : bench.take given = .ok (held, fresh)) :
    bench.fresh ≤ fresh ∧ ∀ number ∈ held.numbers,
      (∃ entry ∈ bench.bindings, number ∈ entry.2.numbers) ∨
        bench.fresh ≤ number ∧ number < fresh := by
  rcases take_eq_ok h with ⟨new, -, rfl, rfl⟩ | ⟨rfl, ⟨entry, hentry, hinside⟩ | ⟨l, rfl⟩⟩
  · exact ⟨Nat.le_add_right .., fun number hnumber => .inr (Held.mem_numbers_moved hnumber)⟩
  · exact ⟨le_rfl, fun number hnumber => .inl ⟨entry, hentry, hinside.mem_numbers hnumber⟩⟩
  · exact ⟨le_rfl, nofun⟩

/-! ## What a body is made with -/

/-- The copy of the variables that a body is made with. -/
def copied (bench : Workbench) : Held :=
  (Held.dict bench.fresh bench.bindings).moved (bench.fresh + 1)

theorem inner_newBody (bench : Workbench) : bench.newBody.inner =
    [.leaf (.str bench.query), bench.copied] ++
      if bench.operation.value.isNull then [] else [bench.operation] := by
  rw [newBody]
  split <;> rfl

/-- The copy has numbers that are new, where those of the variables are not. -/
theorem mem_numbers_copied
    (h : ∀ entry ∈ bench.bindings, ∀ number ∈ entry.2.numbers, number < bench.fresh) {number : Nat}
    (hnumber : number ∈ bench.copied.numbers) :
    bench.fresh < number ∧ number < 2 * bench.fresh + 2 := by
  have hbound : (Held.dict bench.fresh bench.bindings).bound ≤ bench.fresh + 1 := by
    refine Held.bound_le fun number hn => ?_
    rw [Held.numbers_dict, List.mem_cons, List.mem_flatMap] at hn
    rcases hn with rfl | ⟨entry, hentry, hn⟩
    · exact Nat.lt_succ_self _
    · exact Nat.lt_succ_of_lt (h entry hentry number hn)
  have hmoved := Held.mem_numbers_moved hnumber
  omega

end Workbench
end SchemaScribe
