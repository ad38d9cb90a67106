import SchemaScribe.Value.Basic

/-! # Schemas

The named types of a GraphQL schema with their members, in order. A member that a server left out is
null. The kinds of a type's members are fixed; what the server sends for a name, a description, a
default value or a reason is kept as it came.
-/
namespace SchemaScribe

/-- A reference to a named type, with the list and non-null modifiers around it. -/
inductive TypeRef where
  | named (name : Value)
  | list (item : TypeRef)
  | nonNull (item : TypeRef)
deriving Repr, Inhabited

namespace TypeRef

/-- The name at the end of the modifiers. -/
def innermost : TypeRef → Value
  | .named name => name
  | .list item | .nonNull item => item.innermost

@[simp] theorem innermost_named (name : Value) : (named name).innermost = name := rfl
@[simp] theorem innermost_list (t : TypeRef) : (list t).innermost = t.innermost := rfl
@[simp] theorem innermost_nonNull (t : TypeRef) : (nonNull t).innermost = t.innermost := rfl

def depth : TypeRef → Nat
  | .named _ => 0
  | .list item | .nonNull item => item.depth + 1

end TypeRef

structure InputValue where
  name : Value
  type : TypeRef
  description : Value := .null
  defaultValue : Value := .null
deriving Repr, Inhabited

structure Field where
  name : Value
  type : TypeRef
  description : Value := .null
  arguments : List InputValue := []
  deprecated : Bool := false
  reason : Value := .null
deriving Repr, Inhabited

structure EnumValue where
  name : Value
  description : Value := .null
  deprecated : Bool := false
  reason : Value := .null
deriving Repr, Inhabited

inductive TypeBody where
  | scalar
  | object (interfaces : List Value) (fields : List Field)
  | interface (interfaces : List Value) (fields : List Field)
  | union (members : List Value)
  | enum (values : List EnumValue)
  | inputObject (fields : List InputValue)
deriving Repr, Inhabited

structure TypeDef where
  name : Value
  description : Value := .null
  body : TypeBody
deriving Repr, Inhabited

/-- The declarations of a schema in order, and the names of its root operation types. -/
structure Schema where
  types : List TypeDef
  query : Value := .null
  mutation : Value := .null
  subscription : Value := .null
deriving Repr, Inhabited

/-- The names that a field refers to. -/
def Field.references (field : Field) : List Value :=
  field.type.innermost :: field.arguments.map (·.type.innermost)

/-- The names that the members of a type refer to. -/
def TypeBody.references : TypeBody → List Value
  | .scalar | .enum _ => []
  | .object interfaces fields | .interface interfaces fields =>
    interfaces ++ fields.flatMap Field.references
  | .union members => members
  | .inputObject fields => fields.map (·.type.innermost)

def Schema.find? (schema : Schema) (name : Value) : Option TypeDef :=
  schema.types.find? fun type => type.name.same name

/-- The roots with the names of their operations. -/
def Schema.roots (schema : Schema) : List (String × Value) :=
  [("query", schema.query), ("mutation", schema.mutation), ("subscription", schema.subscription)]

end SchemaScribe
