import SchemaScribe.Value.Text

/-! # Faults of an introspection result

What a schema cannot be built from. A malformed result is told by its reason. Apart from these there
are values that cannot even be compared with names: they are no reason that a server's answer is
promised to give, but faults of a different kind.
-/
namespace SchemaScribe

inductive Malformed where
  | notAnObject (place : String) (found : Value)
  | missing (member place : String) (data : Value)
  | notAList (member : String) (found : Value)
  | endlessReference (context : String)
  | doubledNonNull (context : String)
  | deepReference (context : String) (levels : Nat)
  | resultNotAnObject (found : Value)
  | schemaNotAnObject (found : Value)
  | typesNotAList (found : Value)
  | repeatedType (name : Value)
  | unexpectedKind (name kind : Value)
  | dangling (name : Value) (references : List Value)
  | unknownRoot (name : Value)
  | noResult
  | noSchema
deriving Repr

/-- The place of a fault in a message; without a place there is nothing to tell. -/
def placeText (place : String) : String := if place = "" then "" else " in " ++ place

def Malformed.message : Malformed → String
  | .notAnObject place found =>
    "Expected a JSON object" ++ placeText place ++ " but got: " ++ found.display
  | .missing member place data =>
    "Introspection result is missing required field \"" ++ member ++ "\"" ++ placeText place ++
      ": " ++ data.display
  | .notAList member found =>
    "Expected field \"" ++ member ++ "\" to be a list, but got: " ++ found.display
  | .endlessReference context =>
    "Type reference of " ++ context ++ " does not terminate in a named type."
  | .doubledNonNull context =>
    "Type reference of " ++ context ++ " wraps a non-null type in another non-null modifier."
  | .deepReference context levels =>
    "Type reference of " ++ context ++ " is nested more than " ++ toString levels ++
      " levels deep."
  | .resultNotAnObject found =>
    "Expected the introspection result to be a JSON object, but got: " ++ found.display
  | .schemaNotAnObject found => "Expected \"__schema\" to be a JSON object, got: " ++ found.display
  | .typesNotAList found => "Expected \"__schema.types\" to be a list, got: " ++ found.display
  | .repeatedType name => "Type \"" ++ name.display ++ "\" appears more than once in the schema."
  | .unexpectedKind name kind =>
    "Type \"" ++ name.display ++ "\" has unexpected kind \"" ++ kind.display ++ "\"."
  | .dangling name references =>
    "Type \"" ++ name.display ++ "\" references types that are not part of the schema: " ++
      (Value.list references).display
  | .unknownRoot name => "Root operation type \"" ++ name.display ++ "\" is not part of the schema."
  | .noResult => "No introspection result is available. Call get_schema() before build()."
  | .noSchema => "No schema is available to write. Call build() before write()."

inductive BuildFault where
  | malformed (reason : Malformed)
  | unhashable (found : Value)
  | unordered (found : List Value)
  | nameNotText (found : Value)
  | noMembers (found : Value)
deriving Repr

end SchemaScribe
