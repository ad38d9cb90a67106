import SchemaScribe.Schema.Introspection
import SchemaScribe.Value.Edit

/-! # The origin of a schema

What a schema has in common with the result that it was built from. Names, descriptions, default
values and reasons are not copied while a schema is built: the schema has the very values that the
result holds. A change inside such a value is therefore a change of the schema too. What is put in
the place of such a value, or of anything that it stands in, does not reach the schema, and neither
does any later change there.
-/
namespace SchemaScribe

abbrev Path := List Value

/-- Does the first path lead to the place of the second one or to something that it stands in? -/
def Path.leadsTo : Path → Path → Bool
  | [], _ => true
  | _ :: _, [] => false
  | step :: path, other :: rest => step.same other && leadsTo path rest

/-- The path with the positions of items in place of the indices that name them. -/
def Path.positions : Path → Value → Path
  | [], _ => []
  | step :: path, .list items =>
    match Value.index step with
    | .ok index =>
      match Value.position? items.length index with
      | some i => .int i :: positions path (items[i]?.getD .null)
      | none => step :: path
    | .error _ => step :: path
  | step :: path, .dict entries =>
    step :: positions path ((Entries.value? entries step).getD .null)
  | path, _ => path

namespace Introspection

/-- Does a path from an entry of a list of members lead into a value that is not copied? -/
def entersMember (kept : List String) : Path → Bool
  | .str member :: _ :: _ => kept.contains member
  | _ => false

/-- The members of an argument or a field of an input object that are not copied. -/
def inputValueMembers : List String := ["name", "description", "defaultValue"]

/-- The members of a field or a value of an enum that are not copied. -/
def fieldMembers : List String := ["name", "description", "deprecationReason"]

/-- Does a path from a type lead into a value that is not copied? -/
def entersType : Path → Bool
  | .str "fields" :: _ :: .str "args" :: _ :: path => entersMember inputValueMembers path
  | .str "inputFields" :: _ :: path => entersMember inputValueMembers path
  | .str "fields" :: _ :: path | .str "enumValues" :: _ :: path => entersMember fieldMembers path
  | path => entersMember ["description"] path

/-- The path from the `__schema` object of a result, if it leads there. -/
def fromSchema (result : Value) : Path → Option Path
  | .str "__schema" :: path => if (result.member "__schema").isDict then some path else none
  | .str "data" :: .str "__schema" :: path =>
    if (result.member "__schema").isDict then none else some path
  | _ => none

/-- Does a path from a result lead into a value that is not copied? -/
def entersCommon (result : Value) (path : Path) : Bool :=
  match fromSchema result path with
  | some (.str "types" :: _ :: path) => entersType path
  | _ => false

end Introspection

/-- The result that a schema was built from, as far as the schema has to do with it, and the places
in it at which something else was put since. -/
structure Origin where
  result : Value
  replaced : List Path := []

/-- The origin and the schema after a change of the result at a path. -/
def Origin.follow (origin : Origin) (schema : Schema) (path : Path) (value : Value) :
    Origin × Schema :=
  if origin.replaced.any (·.leadsTo path) then (origin, schema)
  else if Introspection.entersCommon origin.result path then
    match Value.edit value path origin.result with
    | .ok result => ({ origin with result }, ((Introspection.build result).toOption).getD schema)
    | .error _ => (origin, schema)
  else ({ origin with replaced := path :: origin.replaced }, schema)

end SchemaScribe
