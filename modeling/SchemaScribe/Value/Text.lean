import SchemaScribe.Value.Basic
import SchemaScribe.Decimal.Numeral
import SchemaScribe.Decimal.Shortest
import SchemaScribe.Text.Quoted

/-! # Values in messages

How a value is shown to a reader. A text that stands for itself is shown as it is; inside a value
texts are quoted. A half of a surrogate pair has no place in a message and is shown by its number. A
sequence of one item in round brackets ends in a comma. There is a limit to the digits of a whole
number in a text: a value of a caller may be beyond it, one that was read is not.
-/
namespace SchemaScribe.Value

def bracketed (left right : String) (parts : List String) : String :=
  left ++ Text.joinWith ", " parts ++ right

mutual

/-- The value as it is shown inside another one. -/
def quoted : Value → String
  | .null => "None"
  | .bool b => if b then "True" else "False"
  | .int n => toString n
  | .float x => x.text
  | .str s => Text.quote s
  | .torn text => text.quoted
  | .bytes octets => Text.quoteOctets octets
  | .list xs => bracketed "[" "]" (quotedItems xs)
  | .tuple xs =>
    match quotedItems xs with
    | [only] => "(" ++ only ++ ",)"
    | parts => bracketed "(" ")" parts
  | .set xs => if xs.isEmpty then "set()" else bracketed "\x7b" "\x7d" (quotedItems xs)
  | .dict es => bracketed "\x7b" "\x7d" (quotedEntries es)
  | .record name ms => name ++ bracketed "(" ")" (quotedMembers ms)
  | .foreign kind _ => "<" ++ kind ++ ">"

def quotedItems : List Value → List String
  | [] => []
  | x :: xs => quoted x :: quotedItems xs

def quotedEntries : List (Value × Value) → List String
  | [] => []
  | (k, v) :: es => (quoted k ++ ": " ++ quoted v) :: quotedEntries es

def quotedMembers : List (String × Value) → List String
  | [] => []
  | (k, v) :: ms => (k ++ "=" ++ quoted v) :: quotedMembers ms

end

def display : Value → String
  | .str s => s
  | .torn text => text.shown
  | v => quoted v

@[simp] theorem display_str (s : String) : display (.str s) = s := rfl

mutual

/-- Does the value have a whole number in it with more digits than can be shown? -/
def overlong : Value → Bool
  | .int n => decide (Numeral.digitLimit < Numeral.digitCount n)
  | .list xs | .tuple xs | .set xs => overlongItems xs
  | .dict es => overlongEntries es
  | .record _ ms => overlongMembers ms
  | _ => false

def overlongItems : List Value → Bool
  | [] => false
  | x :: xs => overlong x || overlongItems xs

def overlongEntries : List (Value × Value) → Bool
  | [] => false
  | (k, v) :: es => overlong k || overlong v || overlongEntries es

def overlongMembers : List (String × Value) → Bool
  | [] => false
  | (_, v) :: ms => overlong v || overlongMembers ms

end

def kindWord : Value → String
  | .null => "NoneType"
  | .bool _ => "bool"
  | .int _ => "int"
  | .float _ => "float"
  | .str _ | .torn _ => "str"
  | .bytes _ => "bytes"
  | .list _ => "list"
  | .tuple _ => "tuple"
  | .set _ => "set"
  | .dict _ => "dict"
  | .record name _ => name
  | .foreign kind _ => kind

end SchemaScribe.Value
