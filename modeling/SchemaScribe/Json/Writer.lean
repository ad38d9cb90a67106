import SchemaScribe.Decimal.Numeral
import SchemaScribe.Json.Fault
import SchemaScribe.Text.Join
import SchemaScribe.Value.Text

/-! # Writing JSON

A value as JSON text, with a blank after each comma and colon. A tuple is written as a list. Keys
are written as texts. In the strict style a number that is not finite is refused; in the ASCII style
every other character is written by its number. There may be a limit to the digits of a whole number.
-/
namespace SchemaScribe.Json

structure Style where
  asciiOnly : Bool
  finiteOnly : Bool
  digits : Option Nat

def Style.request : Style := ⟨true, true, some Numeral.digitLimit⟩

inductive Unwritable where
  | value (kind : String)
  | key (kind : String)
  | notFinite
  | longInteger
deriving DecidableEq, Repr

def Unwritable.message : Unwritable → String
  | .value kind => s!"Object of type {kind} is not JSON serializable"
  | .key kind => s!"keys must be str, int, float, bool or None, not {kind}"
  | .notFinite => "Out of range float values are not JSON compliant"
  | .longInteger => digitLimitText Numeral.digitLimit ""

/-- A numeric escape of one code unit. -/
def unitEscape (n : Nat) : List Char := ['\\', 'u'] ++ Text.hexDigits Text.lowerHexDigit 4 n

/-- A character by its number: beyond the first plane, the two halves of a surrogate pair. -/
def numberEscape (c : Char) : List Char :=
  let n := c.toNat
  if n < 0x10000 then unitEscape n
  else unitEscape (0xD800 + (n - 0x10000) / 0x400) ++ unitEscape (0xDC00 + (n - 0x10000) % 0x400)

def writeChar (asciiOnly : Bool) (c : Char) : List Char :=
  if c = '"' then ['\\', '"']
  else if c = '\\' then ['\\', '\\']
  else if c = '\n' then ['\\', 'n']
  else if c = '\r' then ['\\', 'r']
  else if c = '\t' then ['\\', 't']
  else if c = '\x0c' then ['\\', 'f']
  else if c = '\x08' then ['\\', 'b']
  else if c.toNat < 0x20 then numberEscape c
  else if asciiOnly && 0x7F ≤ c.toNat then numberEscape c
  else [c]

def writeString (asciiOnly : Bool) (s : String) : String :=
  String.ofList ('"' :: s.toList.flatMap (writeChar asciiOnly) ++ ['"'])

/-- A torn text. A half has nothing but its number to be written by. -/
def writeTorn (asciiOnly : Bool) (text : Text.Torn) : String :=
  String.ofList ('"' :: text.written (writeChar asciiOnly) (fun half => unitEscape half.number) ++ ['"'])

/-- A decimal number: what is not finite has a word of its own. -/
def writeFloat (style : Style) (x : Binary64) : Except Unwritable String :=
  if style.finiteOnly && !x.isFinite then .error .notFinite
  else .ok (match x with
    | .nan => "NaN"
    | .infinite negative => if negative then "-Infinity" else "Infinity"
    | x => x.text)

/-- A whole number: one with more digits than the limit is refused. -/
def writeInt (style : Style) (n : Int) : Except Unwritable String :=
  if exceeds style.digits (Numeral.digitCount n) then .error .longInteger else .ok (toString n)

/-- The text of a key that is none. -/
def keyText (style : Style) : Value → Except Unwritable String
  | .bool b => .ok (if b then "true" else "false")
  | .null => .ok "null"
  | .int n => writeInt style n
  | .float x => writeFloat style x
  | v => .error (.key v.kindWord)

def writeKey (style : Style) : Value → Except Unwritable String
  | .str s => .ok (writeString style.asciiOnly s)
  | .torn text => .ok (writeTorn style.asciiOnly text)
  | key => (keyText style key).map (writeString style.asciiOnly)

mutual

/-- The text of a value, or the first thing in writing order that cannot be written. -/
def write (style : Style) : Value → Except Unwritable String
  | .null => .ok "null"
  | .bool b => .ok (if b then "true" else "false")
  | .int n => writeInt style n
  | .float x => writeFloat style x
  | .str s => .ok (writeString style.asciiOnly s)
  | .torn text => .ok (writeTorn style.asciiOnly text)
  | .list xs | .tuple xs => (writeItems style xs).map (Value.bracketed "[" "]")
  | .dict es => (writeEntries style es).map (Value.bracketed "\x7b" "\x7d")
  | .bytes _ => .error (.value "bytes")
  | .set _ => .error (.value "set")
  | .record name _ => .error (.value name)
  | .foreign kind _ => .error (.value kind)

def writeItems (style : Style) : List Value → Except Unwritable (List String)
  | [] => .ok []
  | x :: xs => do
    let first ← write style x
    let others ← writeItems style xs
    return first :: others

def writeEntries (style : Style) : List (Value × Value) → Except Unwritable (List String)
  | [] => .ok []
  | (k, v) :: es => do
    let name ← writeKey style k
    let value ← write style v
    let others ← writeEntries style es
    return (name ++ ": " ++ value) :: others

end

end SchemaScribe.Json
