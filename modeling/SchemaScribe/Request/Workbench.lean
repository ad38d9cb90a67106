import SchemaScribe.Json.Fault
import SchemaScribe.Notice
import SchemaScribe.Request.Draft
import SchemaScribe.Request.Held

/-! # Drafts at work

A draft with the bodies that were made of it, while the values of its variables are changed in place
and may be shared: one and the same list can be held under two variables, and by whoever set them. A
body is made with a copy of the variables. The name of the operation is handed on as it is.
-/
namespace SchemaScribe

/-- What a variable is set to: a new value, the numbers in which tell what is one within it, or what
stands at a path inside a variable. -/
inductive Given where
  | new (held : Held)
  | held (name : Value) (path : List Value)

/-- A draft whose values are held, the bodies that are kept, from the oldest on, and the first number
that nothing has yet. -/
structure Workbench where
  query : String
  operation : Held := .leaf .null
  bindings : List (Value × Held) := []
  headers : Entries := []
  bodies : List Held := []
  fresh : Nat := 0

inductive WorkStep where
  | setVariable (name : Value) (given : Given)
  | setHeader (name value : Value)
  | setOperation (name : Held)
  | makeBody
  | editBody (index : Int) (path : List Value) (new : Held)
  | readBody (index : Int)
  | editVariable (name : Value) (path : List Value) (new : Held)
  | show

inductive WorkAnswer where
  | draft
  | body (body : Value)
  | text (text : String)
  | nothing

namespace Workbench

/-- The draft as it is now. -/
def draft (bench : Workbench) : Draft where
  query := bench.query
  operation := bench.operation.value
  bindings := Held.values bench.bindings
  headers := bench.headers

/-- What a variable holds. -/
def binding (bench : Workbench) (name : Value) : Except Value.PathFault Held :=
  if !name.hashable then .error .notAContainer
  else match Entries.value? bench.bindings name with
    | some held => .ok held
    | none => .error (.noKey name)

/-- What is given, and the first number that nothing has from then on. -/
def take (bench : Workbench) : Given → Except Value.PathFault (Held × Nat)
  | .new held => .ok (held.moved bench.fresh, bench.fresh + held.bound)
  | .held name path => do
    return (← path.foldlM (fun held step => held.part step) (← bench.binding name), bench.fresh)

/-- Changes a list or a dictionary for all who hold it. The change has brought new values with so
many numbers. -/
def amend (bench : Workbench) (change : Held.Change) (brought : Nat) : Workbench where
  query := bench.query
  operation := bench.operation.changed change
  bindings := bench.bindings.map fun entry => (entry.1, entry.2.changed change)
  headers := bench.headers
  bodies := bench.bodies.map (·.changed change)
  fresh := bench.fresh + brought

/-- The kept body of an index. -/
def body (bench : Workbench) (index : Int) : Except Value.PathFault Held := do
  let index ← Value.index (.int index)
  match (Value.position? bench.bodies.length index).bind (bench.bodies[·]?) with
  | some body => return body
  | none => .error (.noItem (.list []))

/-- Changes a kept body at a path. -/
def editBody (bench : Workbench) (index : Int) (path : List Value) (new : Held) :
    Except Value.PathFault Workbench := do
  let change ← Held.edit (new.moved bench.fresh) path (← bench.body index)
  return bench.amend change new.bound

/-- Changes the value of a variable at a path. -/
def editVariable (bench : Workbench) (name : Value) (path : List Value) (new : Held) :
    Except Value.PathFault Workbench := do
  let change ← Held.edit (new.moved bench.fresh) path (← bench.binding name)
  return bench.amend change new.bound

/-- A new body: the document, a copy of the variables, and the operation if one is selected. -/
def newBody (bench : Workbench) : Held :=
  let copied := (Held.dict bench.fresh bench.bindings).moved (bench.fresh + 1)
  .dict bench.fresh ([(.str "query", .leaf (.str bench.query)), (.str "variables", copied)] ++
    if bench.operation.value.isNull then [] else [(.str "operationName", bench.operation)])

/-- Keeps a new body. The copy in it has at most as many numbers as are taken before it. -/
def keepBody (bench : Workbench) : Workbench :=
  { bench with bodies := bench.bodies ++ [bench.newBody], fresh := 2 * bench.fresh + 2 }

/-- A text for the draft. A whole number of too many digits has none. -/
def text (bench : Workbench) : Except Notice String :=
  if (Value.dict bench.draft.bindings).overlong ||
      (Value.list (bench.headers.map Prod.fst)).overlong then
    .error { kind := .value, message := Json.digitLimitText Numeral.digitLimit "" }
  else .ok bench.draft.display

/-- Takes one step. A step that fails changes nothing. -/
def step (bench : Workbench) : WorkStep → Except Notice (WorkAnswer × Workbench)
  | .setVariable name given =>
    match bench.take given with
    | .error fault => .error fault.notice
    | .ok (held, fresh) =>
      if name.hashable then
        .ok (.draft, { bench with bindings := Entries.put name held bench.bindings, fresh })
      else .error .unfit
  | .setHeader name value =>
    if name.hashable then
      .ok (.draft, { bench with headers := Entries.put name value bench.headers })
    else .error .unfit
  | .setOperation name =>
    .ok (.draft, { bench with operation := name.moved bench.fresh
                              fresh := bench.fresh + name.bound })
  | .makeBody =>
    match bench.draft.body with
    | .error reason => .error reason.notice
    | .ok _ => .ok (.body bench.newBody.value, bench.keepBody)
  | .editBody index path new =>
    match bench.editBody index path new with
    | .ok changed => .ok (.nothing, changed)
    | .error fault => .error fault.notice
  | .readBody index =>
    match bench.body index with
    | .ok body => .ok (.body body.value, bench)
    | .error fault => .error fault.notice
  | .editVariable name path new =>
    match bench.editVariable name path new with
    | .ok changed => .ok (.nothing, changed)
    | .error fault => .error fault.notice
  | .show => bench.text.map fun text => (.text text, bench)

end Workbench
end SchemaScribe
