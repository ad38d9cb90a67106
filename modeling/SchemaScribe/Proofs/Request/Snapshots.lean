import SchemaScribe.Proofs.Request.Values

/-! # Bodies as snapshots

A body is made of the draft as it is, and from then on only the edits that lead to it change it,
however the variables share what they hold, and whatever is done to it. This holds as long as the
operation names that are set are texts or the like, with nothing in them that could be changed: such
a name is not copied.
-/
namespace SchemaScribe

namespace WorkStep

def nameAfter (held : Held) : WorkStep → Held
  | .setOperation name => name
  | _ => held

/-- The operation name that was set last. -/
def lastName (steps : List WorkStep) : Held := steps.foldl nameAfter (.leaf .null)

end WorkStep

namespace Workbench
open WorkStep Account Held

/-- The entries of a body: the document, the variables, and the operation name if there is one. -/
def snapshot (query : String) (bindings : Entries) (operation : Value) : Entries :=
  if operation.isNull then [(.str "query", .str query), (.str "variables", .dict bindings)]
  else
    [(.str "query", .str query), (.str "variables", .dict bindings),
      (.str "operationName", operation)]

/-- What a step makes of the kept body of that number: it is changed by the edits that lead to it. -/
def bodyAfter (number : Nat) (bench : Workbench) (body : Held) : WorkStep → Held
  | .editBody index path new =>
    if addressed? bench.bodies.length index = some number then
      match edit (new.moved bench.fresh) path body with
      | .ok change => body.changed change
      | .error _ => body
    else body
  | _ => body

/-- The same told by values. -/
def valueAfter (number : Nat) (bench : Workbench) (body : Value) : WorkStep → Value
  | .editBody index path new =>
    if addressed? bench.bodies.length index = some number then
      (Value.edit new.value path body).toOption.getD body
    else body
  | _ => body

variable {bench : Workbench} {index : Int} {path : List Value} {new body : Held} {number : Nat}
  {query : String}

/-! ## New bodies -/

theorem value_newBody (bench : Workbench) : bench.newBody.value =
    .dict (snapshot bench.query (Held.values bench.bindings) bench.operation.value) := by
  have hcopied : bench.copied.value = .dict (Held.values bench.bindings) := by
    rw [copied, value_moved, value_dict]
  rw [newBody, value_dict, snapshot, ← copied]
  split <;> simp [Held.values, hcopied, Leaf.str]

theorem step_makeBody_of_copyable
    (h : (Value.dict (Held.values bench.bindings)).uncopyable? = none) :
    let entries := snapshot bench.query (Held.values bench.bindings) bench.operation.value
    bench.draft.body = .ok entries ∧
      bench.step .makeBody = .ok (.body (.dict entries), bench.keepBody) := by
  intro entries
  have hbody : bench.draft.body = .ok entries := by
    have hcopy : (Value.dict bench.draft.bindings).copy = .ok (.dict bench.draft.bindings) := by
      rw [Value.copy, show (Value.dict bench.draft.bindings).uncopyable? = none from h]
    have hwith : bench.draft.bodyWith (.dict bench.draft.bindings) = entries := by
      rw [Draft.bodyWith, show entries = snapshot bench.draft.query bench.draft.bindings
        bench.draft.operation from rfl, snapshot]
      cases bench.draft.operation.isNull <;> rfl
    rw [Draft.body, hcopy, Except.map, hwith]
  exact ⟨hbody, by rw [step, hbody, value_newBody]⟩

theorem step_makeBody_of_uncopyable {kind : String}
    (h : (Value.dict (Held.values bench.bindings)).uncopyable? = some kind) :
    bench.draft.body = .error ⟨kind⟩ ∧
      bench.step .makeBody = .error (Value.Uncopyable.mk kind).notice := by
  have hbody : bench.draft.body = .error ⟨kind⟩ := by
    rw [Draft.body, Value.copy, show (Value.dict bench.draft.bindings).uncopyable? = some kind from h]
    rfl
  exact ⟨hbody, by rw [step, hbody]⟩

/-! ## What a step makes of the bodies -/

namespace Apart

theorem draft_editBody (ha : Apart bench) (index : Int) (path : List Value) (new : Held) :
    (bench.next (.editBody index path new)).draft = bench.draft ∧
      (bench.next (.editBody index path new)).bindings = bench.bindings := by
  rcases bench.editBody_cases index path new with ⟨i, body, change, -, hi, hedit, hnext⟩ | ⟨hnext, -⟩
  · have hkept := ha.bindings_changed hi (of_edit hedit).within
    have hdraft : (bench.amend change new.bound).draft = bench.draft := by
      simp only [draft, Workbench.amend, hkept, ha.operation_changed]
    rw [hnext]
    exact ⟨hdraft, hkept⟩
  · rw [hnext]
    exact ⟨rfl, rfl⟩

/-- An edit of a body leaves every other body as it is. -/
theorem editBody_other (ha : Apart bench) {index : Int} (path : List Value) (new : Held)
    (hother : addressed? bench.bodies.length index ≠ some number) :
    (bench.next (.editBody index path new)).bodies[number]? = bench.bodies[number]? := by
  rcases bench.editBody_cases index path new with
    ⟨i, body, change, haddressed, hi, hedit, hnext⟩ | ⟨hnext, -⟩
  · have hne : i ≠ number := by
      rintro rfl
      exact hother haddressed
    rw [hnext]
    exact ha.body_changed hi (of_edit hedit).within hne
  · rw [hnext]

theorem editBody_addressed {index : Int} (path : List Value) (new : Held)
    (haddressed : addressed? bench.bodies.length index = some number)
    (hbody : bench.bodies[number]? = some body) :
    (bench.next (.editBody index path new)).bodies[number]? =
      some (bodyAfter number bench body (.editBody index path new)) := by
  rw [bodyAfter, if_pos haddressed]
  rcases bench.editBody_cases index path new with
    ⟨i, found, change, hfound, hi, hedit, hnext⟩ | ⟨hnext, hfails⟩
  · obtain rfl := Option.some.inj (haddressed.symm.trans hfound)
    obtain rfl := Option.some.inj (hbody.symm.trans hi)
    rw [hnext, hedit, Workbench.amend, List.getElem?_map, hbody, Option.map_some]
  · rw [hnext, hbody]
    cases hedit : edit (new.moved bench.fresh) path body with
    | ok change => exact absurd hedit (hfails number body change haddressed hbody)
    | error fault => rfl

/-- A step makes of a kept body what the edits that lead to it make of it. -/
theorem bodies_next (ha : Apart bench) (hbody : bench.bodies[number]? = some body)
    (work : WorkStep) :
    (bench.next work).bodies[number]? = some (bodyAfter number bench body work) := by
  have hlt : number < bench.bodies.length := (List.getElem?_eq_some_iff.mp hbody).1
  cases work with
  | editBody index path new =>
    by_cases haddressed : addressed? bench.bodies.length index = some number
    · exact editBody_addressed path new haddressed hbody
    · rw [ha.editBody_other path new haddressed, hbody, bodyAfter, if_neg haddressed]
  | editVariable name path new =>
    have hkept : bodyAfter number bench body (.editVariable name path new) = body := rfl
    rw [next_editVariable, hkept]
    cases hchange : bench.variableChange name path new with
    | error fault => exact hbody
    | ok change =>
      have hbodies := ha.bodies_changed (ha.editVariable hchange).2
      exact (congrArg (·[number]?) hbodies).trans hbody
  | setVariable name given =>
    have hkept : bodyAfter number bench body (.setVariable name given) = body := rfl
    rw [next_setVariable, hkept]
    split
    · split <;> exact hbody
    · exact hbody
  | makeBody =>
    have hkept : bodyAfter number bench body .makeBody = body := rfl
    rw [next_makeBody, hkept]
    split
    · exact (List.getElem?_append_left hlt).trans hbody
    · exact hbody
  | setHeader name value => rw [next_setHeader]; exact hbody
  | readBody index => rw [next_readBody]; exact hbody
  | «show» => rw [next_show]; exact hbody
  | setOperation name => exact hbody

/-! ## Runs -/

/-- A kept body changes by the edits that lead to it, whatever else is done. -/
theorem bodies_run (ha : Apart bench) (hbody : bench.bodies[number]? = some body)
    {steps : List WorkStep} (hnames : ∀ name, WorkStep.setOperation name ∈ steps → name.numbers = []) :
    (bench.run steps).bodies[number]? = some (bench.follow (bodyAfter number) body steps) := by
  induction steps generalizing bench body with
  | nil => exact hbody
  | cons work later ih =>
    have hnext := ha.next fun name hwork => hnames name (hwork ▸ List.mem_cons_self)
    exact ih hnext (ha.bodies_next hbody work) fun name hname =>
      hnames name (List.mem_cons_of_mem work hname)

end Apart

theorem Single.value_bodyAfter (hs : Single bench) (hbody : bench.bodies[number]? = some body)
    (work : WorkStep) :
    (bodyAfter number bench body work).value = valueAfter number bench body.value work := by
  cases work with
  | editBody index path new =>
    rw [bodyAfter, valueAfter]
    split
    · have hmirror := mirrors_of_nodup (new.moved bench.fresh) path
        (hs.bodies body (List.mem_of_getElem? hbody))
      exact value_moved bench.fresh new ▸ hmirror.value_edit
    · rfl
  | _ => rfl

theorem value_follow (ha : Apart bench) (hs : Single bench) (hbody : bench.bodies[number]? = some body)
    {steps : List WorkStep} (hnames : ∀ name, WorkStep.setOperation name ∈ steps → name.numbers = [])
    (hsteps : ∀ work ∈ steps, work.Unshared) :
    (bench.follow (bodyAfter number) body steps).value =
      bench.follow (valueAfter number) body.value steps := by
  induction steps generalizing bench body with
  | nil => rfl
  | cons work later ih =>
    have hnext := ha.next fun name hwork => hnames name (hwork ▸ List.mem_cons_self)
    have hsingle := hs.next ha (hsteps work List.mem_cons_self)
    have hlater := ih hnext hsingle (ha.bodies_next hbody work)
      (fun name hname => hnames name (List.mem_cons_of_mem work hname))
      fun work hwork => hsteps work (List.mem_cons_of_mem _ hwork)
    rwa [hs.value_bodyAfter hbody] at hlater

/-! ## The draft -/

theorem query_next (bench : Workbench) (work : WorkStep) : (bench.next work).query = bench.query := by
  cases work with
  | setVariable name given =>
    rw [next_setVariable]
    split
    · split <;> rfl
    · rfl
  | setHeader name value => rw [next_setHeader]
  | setOperation name => rfl
  | makeBody => rw [next_makeBody]; split <;> rfl
  | editBody index path new =>
    rcases bench.editBody_cases index path new with ⟨i, body, change, -, -, -, hnext⟩ | ⟨hnext, -⟩ <;>
      rw [hnext]
    rfl
  | readBody index => rw [next_readBody]
  | editVariable name path new => rw [next_editVariable]; split <;> rfl
  | «show» => rw [next_show]

theorem query_run (query : String) (steps : List WorkStep) :
    ((opened query).run steps).query = query := by
  induction steps using List.reverseRecOn with
  | nil => rfl
  | append_singleton steps work ih => rw [run_concat, query_next, ih]

theorem Apart.operation_next (ha : Apart bench) (work : WorkStep) :
    (bench.next work).operation.value = (nameAfter bench.operation work).value := by
  cases work with
  | setVariable name given =>
    rw [next_setVariable]
    split
    · split <;> rfl
    · rfl
  | setHeader name value => rw [next_setHeader]; rfl
  | setOperation name => exact value_moved bench.fresh name
  | makeBody => rw [next_makeBody]; split <;> rfl
  | editBody index path new => exact congrArg Draft.operation (ha.draft_editBody index path new).1
  | readBody index => rw [next_readBody]; rfl
  | editVariable name path new =>
    rw [next_editVariable]
    split
    · exact congrArg Held.value (ha.operation_changed _)
    · rfl
  | «show» => rw [next_show]; rfl

theorem operation_run (query : String) {steps : List WorkStep}
    (hnames : ∀ name, WorkStep.setOperation name ∈ steps → name.numbers = []) :
    ((opened query).run steps).operation.value = (lastName steps).value := by
  induction steps using List.reverseRecOn with
  | nil => rfl
  | append_singleton steps work ih =>
    have hbefore : ∀ name, WorkStep.setOperation name ∈ steps → name.numbers = [] := fun name hname =>
      hnames name (List.mem_append_left _ hname)
    rw [run_concat, ((apart_opened query).run hbefore).operation_next, lastName, List.foldl_append]
    cases work with
    | setOperation name => rfl
    | _ => exact ih hbefore

/-! ## Snapshots -/

/-- A list is held inside the first variable and as the second one, and changed under its name. -/
def earlySteps : List WorkStep :=
  [.setVariable (.int 1) (.new (.ofValue 0 (.list [.list [.int 1]]))),
    .setVariable (.str "inner") (.held (.bool true) [.int 0]),
    .editVariable (.str "inner") [.int 0] (.ofValue 0 (.int 2)),
    .setOperation (.leaf (.str "Viewer"))]

def lateSteps : List WorkStep :=
  [.editVariable (.int 1) [.int 0, .int 0] (.ofValue 0 (.int 3)), .setOperation (.leaf .null),
    .makeBody, .editBody 0 [.str "variables", .str "inner", .int 0] (.ofValue 0 (.int 4)),
    .editBody (-1) [.str "query"] (.ofValue 0 (.str ""))]

/-- A list that nothing else holds. -/
def ownSteps : List WorkStep := [.setVariable (.str "ids") (.new (.ofValue 0 (.list [.int 1])))]

/-- It is changed in the draft and in a body. -/
def ownLateSteps : List WorkStep :=
  [.editVariable (.str "ids") [.int 0] (.ofValue 0 (.int 2)),
    .editBody 0 [.str "variables", .str "ids", .int 0] (.ofValue 0 (.int 3))]

end Workbench
end SchemaScribe
