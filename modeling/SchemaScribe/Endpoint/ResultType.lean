import SchemaScribe.Decimal.Numeral
import SchemaScribe.Json.Fault
import SchemaScribe.Notice

/-! # Results in a wanted type

The data of a response can be converted: into a record, whose members are the members of the data,
or by a function of the data. A conversion may raise a failure of any kind.
-/
namespace SchemaScribe

/-- A failure of a conversion. Its kind may be a special case of more general ones. -/
structure Raised where
  kind : Kind
  message : String
  general : List Kind := []

/-- Does the failure count as one of the value that is converted, as a value of the wrong type or
with the wrong content? -/
def Raised.isOfValue (raised : Raised) : Bool :=
  (raised.kind :: raised.general).any fun kind => kind = .unfit || kind = .value

/-- What the data of a response is converted into. -/
inductive ResultType where
  | record (name : String) (fields : List (String × Option Value))
  | function (name : String) (call : Value → Except Raised Value)

namespace ResultType

def name : ResultType → String
  | .record name _ => name
  | .function name _ => name

def fail {α : Type} (kind : Kind) (message : String) : Except Raised α := .error { kind, message }

def unfit {α : Type} (message : String) : Except Raised α := fail .unfit message
def wrongValue {α : Type} (message : String) : Except Raised α := fail .value message

/-! ## Records -/

/-- Names in a list, each between single quotes, with a conjunction before the last. -/
def conjoined : List String → String
  | [] => ""
  | [only] => only
  | [first, last] => first ++ " and " ++ last
  | several => Text.joinWith ", " several.dropLast ++ ", and " ++ several.getLastD ""

def singleQuoted (name : String) : String := "'" ++ name ++ "'"

/-- Checks the names of the given members in order. The name of the record that is made is taken. -/
def checkGiven (record : String) (fields : List (String × Option Value)) :
    List (String × Value) → Except Raised Unit
  | [] => .ok ()
  | (given, _) :: rest =>
    if given = "self" then
      unfit (record ++ ".__init__() got multiple values for argument 'self'")
    else if (fields.lookup given).isNone then
      unfit (record ++ ".__init__() got an unexpected keyword argument " ++ singleQuoted given)
    else checkGiven record fields rest

def makeRecord (record : String) (fields : List (String × Option Value))
    (given : List (String × Value)) : Except Raised Value := do
  checkGiven record fields given
  let missing := fields.filter fun field =>
    field.2.isNone && (given.lookup field.1).isNone
  match missing.map Prod.fst with
  | [] =>
    return .record record (fields.map fun field =>
      (field.1, ((given.lookup field.1).or field.2).getD .null))
  | names =>
    unfit (record ++ ".__init__() missing " ++ toString names.length ++
      " required positional argument" ++ (if names.length = 1 then "" else "s") ++ ": " ++
      conjoined (names.map singleQuoted))

/-- The members of an object with the texts of their names. -/
def namedMembers (entries : Entries) : List (String × Value) :=
  entries.filterMap fun (k, v) => match k with
    | .str s => some (s, v)
    | .torn text => some (text.shown, v)
    | _ => none

/-! ## Functions -/

def walk (data : Value) : Except Raised (List Value) :=
  match data.items? with
  | some items => .ok items
  | none => unfit ("'" ++ data.kindWord ++ "' object is not iterable")

def toList (data : Value) : Except Raised Value := (walk data).map .list

def toText (data : Value) : Except Raised Value :=
  .ok (if data.isString then data else .str data.display)

def toTruth (data : Value) : Except Raised Value := .ok (.bool data.truthy)

def toLength (data : Value) : Except Raised Value :=
  match data.items? with
  | some items => .ok (.int items.length)
  | none => unfit ("object of type '" ++ data.kindWord ++ "' has no len()")

def toPair (index : Nat) (item : Value) : Except Raised (Value × Value) :=
  match item.items? with
  | none =>
    unfit ("cannot convert dictionary update sequence element #" ++ toString index ++
      " to a sequence")
  | some [key, value] =>
    if key.hashable then .ok (key, value)
    else unfit ("unhashable type: '" ++ key.kindWord ++ "'")
  | some parts =>
    wrongValue ("dictionary update sequence element #" ++ toString index ++ " has length " ++
      toString parts.length ++ "; 2 is required")

def toPairs (index : Nat) : List Value → Except Raised Entries
  | [] => .ok []
  | item :: rest => do
    let pair ← toPair index item
    return pair :: (← toPairs (index + 1) rest)

def toDict (data : Value) : Except Raised Value :=
  match data with
  | .dict entries => .ok (.dict entries)
  | data => do return .dict (Entries.ofDocument (← toPairs 0 (← walk data)))

/-- The number of characters of a refused text that a message shows. -/
def shownLiteral : Nat := 200

/-- The refusal of a text that is no whole number, with the start of the text between quotes. -/
def noLiteral (quoted : String) : Except Raised Value :=
  wrongValue ("invalid literal for int() with base 10: " ++
    String.ofList (quoted.toList.take shownLiteral))

def wholeFromText (s : String) : Except Raised Value :=
  match Numeral.integer s with
  | .ok n => .ok (.int n)
  | .error (.tooLong digits) => wrongValue (Json.longIntegerText Numeral.digitLimit digits)
  | .error .notANumber => noLiteral (Text.quote s)

def toWhole (data : Value) : Except Raised Value :=
  match data with
  | .int n => .ok (.int n)
  | .bool b => .ok (.int (if b then 1 else 0))
  | .float (.finite negative mantissa exponent) =>
    .ok (.int (Binary64.truncate negative mantissa exponent))
  | .float .nan => wrongValue "cannot convert float NaN to integer"
  | .float (.infinite _) => fail .overflow "cannot convert float infinity to integer"
  | .str s => wholeFromText s
  | .torn text => noLiteral text.quoted
  | data =>
    unfit ("int() argument must be a string, a bytes-like object or a real number, not '" ++
      data.kindWord ++ "'")

def memberNamed (key : String) (data : Value) : Except Raised Value :=
  match data with
  | .dict entries =>
    match Value.lookup key entries with
    | some found => .ok found
    | none => fail .key (Text.quote key)
  | .list _ => unfit "list indices must be integers or slices, not str"
  | .str _ | .torn _ => unfit "string indices must be integers, not 'str'"
  | data => unfit ("'" ++ data.kindWord ++ "' object is not subscriptable")

def notCallable (value : Value) : ResultType :=
  .function value.display fun _ => unfit ("'" ++ value.kindWord ++ "' object is not callable")

/-- The data in the wanted type. -/
def convert (type : ResultType) (data : Value) : Except Raised Value :=
  match type with
  | .record name fields =>
    match data with
    | .dict entries => makeRecord name fields (namedMembers entries)
    | data => unfit ("expected a JSON object, got " ++ data.kindWord)
  | .function _ call => call data

end ResultType
end SchemaScribe
