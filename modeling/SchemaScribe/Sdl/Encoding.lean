import SchemaScribe.Sdl.Printer

/-! # Texts that cannot be encoded

A torn name or description makes the text of its schema a torn one, for which there are no octets.
Where it is torn shows when the text is printed twice with different characters in the place of
every half: only at these places the two differ.
-/
namespace SchemaScribe

/-! ## Schemas with the halves filled in -/

section Filled
variable (standIn : Text.Half → Char)

/-- A value with a character in the place of every half, where the value is a torn text itself. A
half inside a list or an object is shown by its number in any case. -/
def Value.filled : Value → Value
  | .torn text => .str (text.filled standIn)
  | v => v

def TypeRef.filled : TypeRef → TypeRef
  | .named name => .named (name.filled standIn)
  | .list item => .list item.filled
  | .nonNull item => .nonNull item.filled

def InputValue.filled (value : InputValue) : InputValue where
  name := value.name.filled standIn
  type := value.type.filled standIn
  description := value.description.filled standIn
  defaultValue := value.defaultValue.filled standIn

def Field.filled (field : Field) : Field where
  name := field.name.filled standIn
  type := field.type.filled standIn
  description := field.description.filled standIn
  arguments := field.arguments.map (·.filled standIn)
  deprecated := field.deprecated
  reason := field.reason.filled standIn

def EnumValue.filled (value : EnumValue) : EnumValue where
  name := value.name.filled standIn
  description := value.description.filled standIn
  deprecated := value.deprecated
  reason := value.reason.filled standIn

def TypeBody.filled : TypeBody → TypeBody
  | .scalar => .scalar
  | .object interfaces fields =>
    .object (interfaces.map (·.filled standIn)) (fields.map (·.filled standIn))
  | .interface interfaces fields =>
    .interface (interfaces.map (·.filled standIn)) (fields.map (·.filled standIn))
  | .union members => .union (members.map (·.filled standIn))
  | .enum values => .enum (values.map (·.filled standIn))
  | .inputObject fields => .inputObject (fields.map (·.filled standIn))

def TypeDef.filled (type : TypeDef) : TypeDef where
  name := type.name.filled standIn
  description := type.description.filled standIn
  body := type.body.filled standIn

def Schema.filled (schema : Schema) : Schema where
  types := schema.types.map (·.filled standIn)
  query := schema.query.filled standIn
  mutation := schema.mutation.filled standIn
  subscription := schema.subscription.filled standIn

end Filled

namespace Sdl

/-! ## The first tear of a text -/

/-- The place of the first half in a text, the place of the last of those that stand right behind
it, and the number of the first one. -/
structure Tear where
  first : Nat
  last : Nat
  number : Nat
deriving DecidableEq, Repr

/-- Two planes of characters for private use have room for a character of their own for each half. -/
def standInA (half : Text.Half) : Char := Char.ofNat (0xF0000 + half.index.val)

def standInB (half : Text.Half) : Char := Char.ofNat (0x100000 + half.index.val)

/-- The first characters in which two texts differ, after so many in which they do not. -/
def firstTear (place : Nat) : List Char → List Char → Option Tear
  | a :: s, b :: t =>
    if a = b then firstTear (place + 1) s t
    else
      let others := (s.zip t).takeWhile fun pair => pair.1 != pair.2
      some { first := place, last := place + others.length, number := a.toNat - 0xF0000 + 0xD800 }
  | _, _ => none

/-- The first tear in the text of a schema. -/
def tear? (schema : Schema) : Option Tear :=
  firstTear 0 (schemaText (schema.filled standInA)).toList
    (schemaText (schema.filled standInB)).toList

def Tear.message (tear : Tear) : String :=
  let place := if tear.first = tear.last then
      " '\\u" ++ String.ofList (Text.hexDigits Text.lowerHexDigit 4 tear.number) ++
        "' in position " ++ toString tear.first
    else "s in position " ++ toString tear.first ++ "-" ++ toString tear.last
  "'utf-8' codec can't encode character" ++ place ++ ": surrogates not allowed"

end Sdl
end SchemaScribe
