import SchemaScribe.Schema.Basic
import SchemaScribe.Schema.Malformed
import SchemaScribe.Text.Join

/-! # Schemas from introspection results

The result of an introspection query is an object with a `__schema` member. Each entry of its list
of types becomes one declaration, in order; the types of the introspection system itself, whose
names begin with two underscores, are known but not declared. Every name that is referred to must be
the name of an entry.
-/
namespace SchemaScribe.Introspection

def refuse {α : Type} (reason : Malformed) : Except BuildFault α := .error (.malformed reason)

/-- The member that an object is required to have. The place is told in the message. -/
def required (data : Value) (name place : String) : Except BuildFault Value :=
  match data with
  | .dict entries =>
    match (Value.lookup name entries).getD .null with
    | .null => refuse (.missing name place data)
    | found => .ok found
  | found => refuse (.notAnObject place found)

/-- The list that an object may have under a name; none and null are the empty list. -/
def optionalList (data : Value) (name : String) : Except BuildFault (List Value) :=
  match data with
  | .dict entries =>
    match (Value.lookup name entries).getD .null with
    | .null => .ok []
    | .list items => .ok items
    | found => refuse (.notAList name found)
  | found => .error (.noMembers found)

/-! ## Type references -/

/-- The number of levels of a type reference that an introspection query asks for. -/
def maxLevels : Nat := 8

/-- Reads a type reference of at most so many levels, each an object with a kind. A modifier has
another reference in it, and any other kind ends the reference with a name. -/
def readTypeRef (context : String) : Nat → Bool → Value → Except BuildFault TypeRef
  | 0, _, _ => refuse (.deepReference context maxLevels)
  | levels + 1, insideNonNull, data => do
    if data.isNull then refuse (.endlessReference context)
    else
      let kind ← required data "kind" context
      if !kind.hashable then .error (.unhashable kind)
      else if kind.same (.str "NON_NULL") then
        if insideNonNull then refuse (.doubledNonNull context)
        else return .nonNull (← readTypeRef context levels true (data.member "ofType"))
      else if kind.same (.str "LIST") then
        return .list (← readTypeRef context levels false (data.member "ofType"))
      else return .named (← required data "name" context)

def typeRef (data : Value) (context : String) : Except BuildFault TypeRef :=
  readTypeRef context maxLevels false data

/-! ## Members of types -/

def quotedName (name : Value) : String := "\"" ++ name.display ++ "\""

/-- An argument or a field of an input object. The context is the name of what it belongs to. -/
def inputValue (context : String) (data : Value) : Except BuildFault InputValue := do
  let name ← required data "name" context
  let type ← typeRef (data.member "type") (context ++ "." ++ name.display)
  return { name, type, description := data.member "description"
           defaultValue := data.member "defaultValue" }

def field (typeName : Value) (data : Value) : Except BuildFault Field := do
  let name ← required data "name" ("a field of type " ++ quotedName typeName)
  let context := typeName.display ++ "." ++ name.display
  let type ← typeRef (data.member "type") context
  let arguments ← (← optionalList data "args").mapM (inputValue context)
  return { name, type, description := data.member "description", arguments
           deprecated := (data.member "isDeprecated").truthy
           reason := data.member "deprecationReason" }

def enumValue (typeName : Value) (data : Value) : Except BuildFault EnumValue := do
  let name ← required data "name" ("a value of enum " ++ quotedName typeName)
  return { name, description := data.member "description"
           deprecated := (data.member "isDeprecated").truthy
           reason := data.member "deprecationReason" }

/-- The names of the types listed under a member. -/
def referencedNames (typeName : Value) (name : String) (data : Value) :
    Except BuildFault (List Value) := do
  (← optionalList data name).mapM fun reference =>
    required reference "name" (name ++ " of type " ++ quotedName typeName)

def fields (typeName data : Value) : Except BuildFault (List Field) := do
  (← optionalList data "fields").mapM (field typeName)

/-- The members of a type of the kind that is written so. There is no result for another kind. -/
def typeBody? (kind : String) (typeName data : Value) : Option (Except BuildFault TypeBody) :=
  match kind with
  | "SCALAR" => some (.ok .scalar)
  | "OBJECT" => some do
    let interfaces ← referencedNames typeName "interfaces" data
    return .object interfaces (← fields typeName data)
  | "INTERFACE" => some do
    let interfaces ← referencedNames typeName "interfaces" data
    return .interface interfaces (← fields typeName data)
  | "UNION" => some do return .union (← referencedNames typeName "possibleTypes" data)
  | "ENUM" => some do
    return .enum (← (← optionalList data "enumValues").mapM (enumValue typeName))
  | "INPUT_OBJECT" => some do
    return .inputObject (← (← optionalList data "inputFields").mapM (inputValue typeName.display))
  | _ => none

/-- The declaration of a type with a name and a kind. -/
def typeDef (name kind data : Value) : Except BuildFault TypeDef :=
  if !kind.hashable then .error (.unhashable kind)
  else
    match kind with
    | .str word =>
      match typeBody? word name data with
      | some body => do return { name, description := data.member "description", body := ← body }
      | none => refuse (.unexpectedKind name kind)
    | _ => refuse (.unexpectedKind name kind)

/-! ## The list of types -/

/-- Does the name belong to the introspection system itself? -/
def isMetaName (name : String) : Bool := Text.startsWith "__" name

/-- Reads one entry after those with the known names: its name, and its declaration unless it
belongs to the introspection system. -/
def entry (known : List Value) (data : Value) : Except BuildFault (Value × Option TypeDef) := do
  let kind ← required data "kind" "a type of the schema"
  let name ← required data "name" ("a type of kind " ++ quotedName kind)
  if !name.hashable then .error (.unhashable name)
  else if known.any (·.same name) then refuse (.repeatedType name)
  else
    match name.front? with
    | some front =>
      if isMetaName front then return (name, none)
      else return (name, some (← typeDef name kind data))
    | none => .error (.nameNotText name)

/-- Reads the entries after those with the known names: all their names, and the declarations. -/
def entries (known : List Value) : List Value → Except BuildFault (List Value × List TypeDef)
  | [] => .ok (known, [])
  | data :: rest => do
    let (name, declared) ← entry known data
    let (names, types) ← entries (known ++ [name]) rest
    return (names, declared.toList ++ types)

def rootName (schemaData : Value) (operation : String) : Except BuildFault Value :=
  match schemaData.member operation with
  | .null => .ok .null
  | root => required root "name" ("\"" ++ operation ++ "\"")

/-! ## References -/

/-- The order of names: texts by the numbers of their characters, numbers by their value. -/
def nameLess (v w : Value) : Bool :=
  match v.codes?, w.codes? with
  | some s, some t => s < t
  | _, _ => v.numberLess w

/-- The names in ascending order. Texts and numbers have no order between them. -/
def sortNames (names : List Value) : Except BuildFault (List Value) :=
  if names.all (·.isString) || names.all (·.number?.isSome) || names.length ≤ 1 then
    .ok (names.mergeSort fun v w => !nameLess w v)
  else .error (.unordered names)

/-- The references of a type that are no known names, each once. -/
def danglingNames (known : List Value) (type : TypeDef) : List Value :=
  Value.distinctBy Value.sameInDocument <|
    type.body.references.filter fun name => !known.any (·.same name)

/-- Checks that a type refers to known names only. -/
def checkReferences (known : List Value) (type : TypeDef) : Except BuildFault Unit :=
  match type.body.references.find? (!·.hashable) with
  | some name => .error (.unhashable name)
  | none =>
    match danglingNames known type with
    | [] => .ok ()
    | names => do refuse (.dangling type.name (← sortNames names))

/-- Checks that a root, if there is one, is a known name. -/
def checkRoot (known : List Value) (root : Value) : Except BuildFault Unit :=
  if root.isNull then .ok ()
  else if !root.hashable then .error (.unhashable root)
  else if known.any (·.same root) then .ok ()
  else refuse (.unknownRoot root)

/-! ## The whole result -/

/-- The `__schema` object of a result, or of the response that has the result as its data. -/
def schemaData (result : Value) : Except BuildFault Value :=
  match result with
  | .dict members => do
    let inner :=
      if (Value.lookup "__schema" members).isNone && (result.member "data").isDict then
        result.member "data"
      else result
    match ← required inner "__schema" "the introspection result" with
    | .dict found => return .dict found
    | found => refuse (.schemaNotAnObject found)
  | found => refuse (.resultNotAnObject found)

def typeList (data : Value) : Except BuildFault (List Value) := do
  match ← required data "types" "\"__schema\"" with
  | .list items => return items
  | found => refuse (.typesNotAList found)

/-- Builds the schema that an introspection result describes. -/
def build (result : Value) : Except BuildFault Schema := do
  let data ← schemaData result
  let (known, types) ← entries [] (← typeList data)
  let query ← rootName data "queryType"
  let mutation ← rootName data "mutationType"
  let subscription ← rootName data "subscriptionType"
  types.forM (checkReferences known)
  [query, mutation, subscription].forM (checkRoot known)
  return { types, query, mutation, subscription }

/-- The number of types that a result lists, those of the introspection system included. -/
def listedTypes (result : Value) : Nat :=
  match schemaData result >>= typeList with
  | .ok items => items.length
  | .error _ => 0

end SchemaScribe.Introspection
