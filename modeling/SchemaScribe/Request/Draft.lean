import SchemaScribe.Value.Copy
import SchemaScribe.Value.Edit
import SchemaScribe.Value.Text

/-! # Drafts of requests

A query document with what is sent beside it: the values of its variables, headers, and the name of
the operation to run. Variables and headers keep the order in which they were first set.
-/
namespace SchemaScribe

structure Draft where
  query : String
  operation : Value := .null
  bindings : Entries := []
  headers : Entries := []
deriving Inhabited, Repr

namespace Draft

/-- Sets a variable. A name that cannot be a key is refused. -/
def setVariable (draft : Draft) (name value : Value) : Option Draft :=
  if name.hashable then some { draft with bindings := Entries.put name value draft.bindings } else none

/-- Sets a header. A name that cannot be a key is refused. -/
def setHeader (draft : Draft) (name value : Value) : Option Draft :=
  if name.hashable then some { draft with headers := Entries.put name value draft.headers } else none

def setOperation (draft : Draft) (name : Value) : Draft := { draft with operation := name }

/-- The members of a body: the document, the variables, and the operation if one is selected. -/
def bodyWith (draft : Draft) (bindings : Value) : Entries :=
  [(.str "query", .str draft.query), (.str "variables", bindings)] ++
    if draft.operation.isNull then [] else [(.str "operationName", draft.operation)]

/-- The body of the request, with a copy of the variables. -/
def body (draft : Draft) : Except Value.Uncopyable Entries :=
  (Value.dict draft.bindings).copy.map draft.bodyWith

def display (draft : Draft) : String :=
  "QueryBuilder(query=" ++ Text.quote draft.query ++ ", variables=" ++
    (Value.dict draft.bindings).quoted ++ ", headers=" ++
    (Value.list (draft.headers.map Prod.fst)).quoted ++ ")"

theorem setVariable_eq_some {draft changed : Draft} {name value : Value}
    (h : draft.setVariable name value = some changed) :
    changed = { draft with bindings := Entries.put name value draft.bindings } :=
  (Option.some.inj (Option.ite_none_right_eq_some.mp h).2).symm

theorem setHeader_eq_some {draft changed : Draft} {name value : Value}
    (h : draft.setHeader name value = some changed) :
    changed = { draft with headers := Entries.put name value draft.headers } :=
  (Option.some.inj (Option.ite_none_right_eq_some.mp h).2).symm

end Draft
end SchemaScribe
