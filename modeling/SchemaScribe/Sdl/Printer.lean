import SchemaScribe.Schema.Basic
import SchemaScribe.Sdl.BlockString
import SchemaScribe.Sdl.StringLiteral
import SchemaScribe.Value.Text

/-! # Schemas in the schema definition language

The text of a schema: a block for the roots unless their names are the conventional ones, then one
declaration for each type, in order, with an empty line between neighbours. The text ends in a line
feed unless it is empty.
-/
namespace SchemaScribe

def TypeRef.text : TypeRef → String
  | .named name => name.display
  | .list item => "[" ++ item.text ++ "]"
  | .nonNull item => item.text ++ "!"

/-- A type reference as it is shown: a bare name is left as it came. -/
def TypeRef.shown : TypeRef → Value
  | .named name => name
  | t => .str t.text

namespace Sdl

def indent : String := "  "

/-- The reason that a deprecation has when none is given. -/
def defaultReason : String := "No longer supported"

/-- The lines of a description, each after the indentation. -/
def descriptionLines (indentation : String) (description : Value) : List String :=
  if description.isNull then []
  else (Text.splitLineFeeds (blockString description.display.toList)).map fun line =>
    indentation ++ String.ofList line

/-- The wording of a reason. A list is worded as the tuple of its items. -/
def reasonText : Value → String
  | .list items => (Value.tuple items).display
  | reason => reason.display

@[simp] theorem reasonText_str (s : String) : reasonText (.str s) = s := rfl

/-- The directive of a deprecated member, with its reason unless that is the default one. -/
def deprecation (deprecated : Bool) (reason : Value) : String :=
  if !deprecated then ""
  else if reason.isNull || reason.same (.str defaultReason) then " @deprecated"
  else " @deprecated(reason: " ++ String.ofList (stringLiteral (reasonText reason).toList) ++ ")"

def inputValue (value : InputValue) : String :=
  value.name.display ++ ": " ++ value.type.text ++
    (if value.defaultValue.isNull then "" else " = " ++ value.defaultValue.display)

def describedInputValue (indentation : String) (value : InputValue) : List String :=
  descriptionLines indentation value.description ++ [indentation ++ inputValue value]

/-- The arguments of a field: on its line if none is described, else each on lines of its own. -/
def arguments (indentation : String) (values : List InputValue) : String :=
  if values.isEmpty then ""
  else if values.all (·.description.isNull) then
    "(" ++ Text.joinWith ", " (values.map inputValue) ++ ")"
  else
    Text.joinWith "\n"
      ("(" :: values.flatMap (describedInputValue (indentation ++ indent)) ++ [indentation ++ ")"])

def field (f : Field) : List String :=
  descriptionLines indent f.description ++
    [indent ++ f.name.display ++ arguments indent f.arguments ++ ": " ++ f.type.text ++
      deprecation f.deprecated f.reason]

def enumValue (value : EnumValue) : List String :=
  descriptionLines indent value.description ++
    [indent ++ value.name.display ++ deprecation value.deprecated value.reason]

/-- A header with its members between braces, or alone if there are none. -/
def block (header : String) (lines : List String) : String :=
  if lines.isEmpty then header
  else Text.joinWith "\n" ((header ++ " \x7b") :: lines ++ ["\x7d"])

/-- Names after an introduction and with a separator, or nothing if there are none. -/
def nameList (introduction separator : String) (names : List Value) : String :=
  if names.isEmpty then ""
  else introduction ++ Text.joinWith separator (names.map Value.display)

def declaration (name : Value) : TypeBody → String
  | .scalar => "scalar " ++ name.display
  | .object interfaces fields =>
    block ("type " ++ name.display ++ nameList " implements " " & " interfaces)
      (fields.flatMap field)
  | .interface interfaces fields =>
    block ("interface " ++ name.display ++ nameList " implements " " & " interfaces)
      (fields.flatMap field)
  | .union members => "union " ++ name.display ++ nameList " = " " | " members
  | .enum values => block ("enum " ++ name.display) (values.flatMap enumValue)
  | .inputObject fields =>
    block ("input " ++ name.display) (fields.flatMap (describedInputValue indent))

def typeDef (type : TypeDef) : String :=
  Text.joinWith "\n" (descriptionLines "" type.description ++ [declaration type.name type.body])

/-- Is the root missing, or has it the name that is understood without a word? -/
def isConventional (root : Value) (name : String) : Bool := root.isNull || root.same (.str name)

def hasConventionalRoots (schema : Schema) : Bool :=
  isConventional schema.query "Query" && isConventional schema.mutation "Mutation" &&
    isConventional schema.subscription "Subscription"

def rootBlock (schema : Schema) : String :=
  block "schema" <| (schema.roots.filter fun root => !root.2.isNull).map fun (operation, name) =>
    indent ++ operation ++ ": " ++ name.display

def blocks (schema : Schema) : List String :=
  (if hasConventionalRoots schema then [] else [rootBlock schema]) ++ schema.types.map typeDef

def schemaText (schema : Schema) : String :=
  if (blocks schema).isEmpty then "" else Text.joinWith "\n\n" (blocks schema) ++ "\n"

/-! ## What can be printed

Most values are shown as they are. The names of enum values, of interfaces and of the members of
unions are put together with other text and have to be texts themselves. -/

inductive Unprintable where
  | notATypeDef (found : Value)
  | notATypeRef (found : Value)
  | notText (found : Value)
  | notASequence (found : Value)
  | noMember (found : Value) (name : String)

/-- The wording of the two faults that have one. -/
def Unprintable.message : Unprintable → String
  | .notATypeDef found =>
    "Unreachable code reached, unknown type definition: " ++ found.display
  | .notATypeRef found => "Unreachable code reached: " ++ found.display
  | _ => ""

/-- The names in the members of a type that have to be texts. -/
def joinedNames : TypeBody → List Value
  | .object interfaces _ | .interface interfaces _ => interfaces
  | .union members => members
  | .enum values => values.map (·.name)
  | .scalar | .inputObject _ => []

/-- The text of a schema whose names can all be put together. -/
def print (schema : Schema) : Except Unprintable String :=
  match (schema.types.flatMap fun type => joinedNames type.body).find? (!·.isString) with
  | some name => .error (.notText name)
  | none => .ok (schemaText schema)

theorem print_of_isString {schema : Schema}
    (h : ∀ type ∈ schema.types, ∀ name ∈ joinedNames type.body, name.isString = true) :
    print schema = .ok (schemaText schema) := by
  have hnone :
      (schema.types.flatMap fun type => joinedNames type.body).find? (!·.isString) = none := by
    rw [List.find?_eq_none]
    intro name hname
    obtain ⟨type, ht, hname⟩ := List.mem_flatMap.mp hname
    simpa using h type ht name hname
  rw [print, hnone]

end Sdl
end SchemaScribe
