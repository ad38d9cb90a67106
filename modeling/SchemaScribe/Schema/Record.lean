import SchemaScribe.Schema.Basic
import SchemaScribe.Sdl.Printer

/-! # Schemas as records

A schema and its parts as records with named members, the form in which they are shown, compared and
handed over. A record that was put together by hand may hold anything; it is read in the order in
which a schema is printed, so that the first thing that cannot be printed is the one that is told.
-/
namespace SchemaScribe

namespace Record

/-- The records of a schema: their members in order, with the value of each that may be left out. -/
def shapes : List (String × List (String × Option Value)) :=
  let described := ("description", some Value.null)
  let deprecation := [("is_deprecated", some (Value.bool false)),
    ("deprecation_reason", some Value.null)]
  let named := ("name", none)
  let typed := ("type_ref", none)
  let many (member : String) := (member, some (Value.tuple []))
  [("NamedTypeRef", [named]),
   ("ListTypeRef", [("of_type", none)]),
   ("NonNullTypeRef", [("of_type", none)]),
   ("InputValueDefinition", [named, typed, described, ("default_value", some .null)]),
   ("FieldDefinition", [named, typed, described, many "arguments"] ++ deprecation),
   ("EnumValueDefinition", [named, described] ++ deprecation),
   ("ScalarTypeDefinition", [named, described]),
   ("ObjectTypeDefinition", [named, described, many "interfaces", many "fields"]),
   ("InterfaceTypeDefinition", [named, described, many "interfaces", many "fields"]),
   ("UnionTypeDefinition", [named, described, many "possible_types"]),
   ("EnumTypeDefinition", [named, described, many "values"]),
   ("InputObjectTypeDefinition", [named, described, many "input_fields"]),
   ("IntrospectedSchema", [("types", none), ("query_type", some .null),
      ("mutation_type", some .null), ("subscription_type", some .null)])]

inductive Misfit where
  | noMember (name : String)
  | unknownMember (name : String)

def make (name : String) (shape : List (String × Option Value)) (given : List (String × Value)) :
    Except Misfit Value := do
  match given.find? fun member => (shape.lookup member.1).isNone with
  | some (unknown, _) => .error (.unknownMember unknown)
  | none =>
    let members ← shape.mapM fun (member, standard) =>
      match (given.lookup member).or standard with
      | some value => .ok (member, value)
      | none => .error (.noMember member)
    return .record name members

end Record

/-! ## Writing records -/

def TypeRef.toValue : TypeRef → Value
  | .named name => .record "NamedTypeRef" [("name", name)]
  | .list item => .record "ListTypeRef" [("of_type", item.toValue)]
  | .nonNull item => .record "NonNullTypeRef" [("of_type", item.toValue)]

def InputValue.toValue (value : InputValue) : Value :=
  .record "InputValueDefinition"
    [("name", value.name), ("type_ref", value.type.toValue), ("description", value.description),
     ("default_value", value.defaultValue)]

def Field.toValue (field : Field) : Value :=
  .record "FieldDefinition"
    [("name", field.name), ("type_ref", field.type.toValue), ("description", field.description),
     ("arguments", .tuple (field.arguments.map InputValue.toValue)),
     ("is_deprecated", .bool field.deprecated), ("deprecation_reason", field.reason)]

def EnumValue.toValue (value : EnumValue) : Value :=
  .record "EnumValueDefinition"
    [("name", value.name), ("description", value.description),
     ("is_deprecated", .bool value.deprecated), ("deprecation_reason", value.reason)]

def TypeDef.toValue (type : TypeDef) : Value :=
  let record (name : String) (members : List (String × Value)) : Value :=
    .record name ([("name", type.name), ("description", type.description)] ++ members)
  match type.body with
  | .scalar => record "ScalarTypeDefinition" []
  | .object interfaces fields =>
    record "ObjectTypeDefinition"
      [("interfaces", .tuple interfaces), ("fields", .tuple (fields.map Field.toValue))]
  | .interface interfaces fields =>
    record "InterfaceTypeDefinition"
      [("interfaces", .tuple interfaces), ("fields", .tuple (fields.map Field.toValue))]
  | .union members => record "UnionTypeDefinition" [("possible_types", .tuple members)]
  | .enum values =>
    record "EnumTypeDefinition" [("values", .tuple (values.map EnumValue.toValue))]
  | .inputObject fields =>
    record "InputObjectTypeDefinition" [("input_fields", .tuple (fields.map InputValue.toValue))]

def Schema.toValue (schema : Schema) : Value :=
  .record "IntrospectedSchema"
    [("types", .tuple (schema.types.map TypeDef.toValue)), ("query_type", schema.query),
     ("mutation_type", schema.mutation), ("subscription_type", schema.subscription)]

/-! ## Reading records -/

namespace Record
open Sdl (Unprintable)

def get (value : Value) (member : String) : Except Unprintable Value :=
  match value.recordMember? member with
  | some found => .ok found
  | none => .error (.noMember value member)

/-- What is met when a value is walked through. A schema is walked through by its types. -/
def items (value : Value) : Except Unprintable (List Value) :=
  let walked := match value with
    | .record "IntrospectedSchema" members => (members.lookup "types").bind Value.items?
    | value => value.items?
  match walked with
  | some found => .ok found
  | none => .error (.notASequence value)

/-- A value counts as true unless it is null, zero or empty. A schema is empty without types. -/
def truthy (value : Value) : Bool :=
  match value with
  | .record "IntrospectedSchema" _ =>
    match items value with
    | .ok found => !found.isEmpty
    | .error _ => true
  | value => value.truthy

end Record

open Sdl (Unprintable)

def TypeRef.ofValue (value : Value) : Except Unprintable TypeRef :=
  match value with
  | .record name [(_, inner)] =>
    if name = "NamedTypeRef" then .ok (.named inner)
    else if name = "ListTypeRef" then (TypeRef.ofValue inner).map .list
    else if name = "NonNullTypeRef" then (TypeRef.ofValue inner).map .nonNull
    else .error (.notATypeRef value)
  | value => .error (.notATypeRef value)
termination_by structural value

/-- The name at the end of the modifiers of a record. -/
def Record.innermost (value : Value) : Except Unprintable Value :=
  match value with
  | .record name [(_, inner)] =>
    if name = "NamedTypeRef" then .ok inner
    else if name = "ListTypeRef" ∨ name = "NonNullTypeRef" then Record.innermost inner
    else .error (.noMember value "of_type")
  | value => .error (.noMember value "of_type")
termination_by structural value

def InputValue.ofValue (value : Value) : Except Unprintable InputValue := do
  let description ← Record.get value "description"
  let name ← Record.get value "name"
  let type ← TypeRef.ofValue (← Record.get value "type_ref")
  return { name, type, description, defaultValue := ← Record.get value "default_value" }

/-- Looks at the descriptions of arguments up to the first that is not null. -/
def Record.scanDescriptions : List Value → Except Unprintable Unit
  | [] => .ok ()
  | argument :: rest => do
    if (← Record.get argument "description").isNull then Record.scanDescriptions rest
    else .ok ()

def Record.arguments (value : Value) : Except Unprintable (List InputValue) := do
  if !Record.truthy value then return []
  else
    let found ← Record.items value
    Record.scanDescriptions found
    found.mapM InputValue.ofValue

def Field.ofValue (value : Value) : Except Unprintable Field := do
  let description ← Record.get value "description"
  let name ← Record.get value "name"
  let arguments ← Record.arguments (← Record.get value "arguments")
  let type ← TypeRef.ofValue (← Record.get value "type_ref")
  let deprecated ← Record.get value "is_deprecated"
  return { name, type, description, arguments, deprecated := Record.truthy deprecated
           reason := ← Record.get value "deprecation_reason" }

/-- Reads a value of an enum, whose name has to be a text. -/
def EnumValue.ofValue (value : Value) : Except Unprintable EnumValue := do
  let description ← Record.get value "description"
  let name ← Record.get value "name"
  if !name.isString then .error (.notText name)
  else
    let deprecated ← Record.get value "is_deprecated"
    return { name, description, deprecated := Record.truthy deprecated
             reason := ← Record.get value "deprecation_reason" }

/-- Reads names that are put together, all of which have to be texts. -/
def Record.names (value : Value) : Except Unprintable (List Value) := do
  if !Record.truthy value then return []
  else
    let found ← Record.items value
    match found.find? (!·.isString) with
    | some name => .error (.notText name)
    | none => return found

/-- The kind of a record of a declaration with the members of that kind. -/
def TypeBody.ofValue (value : Value) : String → Except Unprintable TypeBody
  | "ScalarTypeDefinition" => return .scalar
  | "ObjectTypeDefinition" => do
    let interfaces ← Record.names (← Record.get value "interfaces")
    return .object interfaces (← (← Record.items (← Record.get value "fields")).mapM Field.ofValue)
  | "InterfaceTypeDefinition" => do
    let interfaces ← Record.names (← Record.get value "interfaces")
    return .interface interfaces
      (← (← Record.items (← Record.get value "fields")).mapM Field.ofValue)
  | "UnionTypeDefinition" => return .union (← Record.names (← Record.get value "possible_types"))
  | "EnumTypeDefinition" =>
    return .enum (← (← Record.items (← Record.get value "values")).mapM EnumValue.ofValue)
  | "InputObjectTypeDefinition" =>
    return .inputObject
      (← (← Record.items (← Record.get value "input_fields")).mapM InputValue.ofValue)
  | _ => .error (.notATypeDef value)

def TypeDef.ofValue (value : Value) : Except Unprintable TypeDef := do
  match value with
  | .record kind _ =>
    let body ← TypeBody.ofValue value kind
    let name ← Record.get value "name"
    return { name, description := ← Record.get value "description", body }
  | value => .error (.notATypeDef value)

def Schema.ofValue (value : Value) : Except Unprintable Schema := do
  let query ← Record.get value "query_type"
  let mutation ← Record.get value "mutation_type"
  let subscription ← Record.get value "subscription_type"
  let types ← (← Record.items (← Record.get value "types")).mapM TypeDef.ofValue
  return { types, query, mutation, subscription }

/-- The text of a schema that is given as a record. -/
def Sdl.printRecord (value : Value) : Except Unprintable String := do
  Sdl.print (← Schema.ofValue value)

end SchemaScribe
