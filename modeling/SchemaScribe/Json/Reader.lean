import SchemaScribe.Json.Fault
import SchemaScribe.Text.Join
import SchemaScribe.Decimal.Numeral
import SchemaScribe.Value.Basic

/-! # Reading JSON

A text is read as one value with nothing but white space around it. Beside the values of JSON the
words `NaN`, `Infinity` and `-Infinity` are numbers, and there may be a limit to the digits of a
whole number. Of members with one name the first gives the place and the last the value. A reader
takes what it needs from the front of the characters and hands on the rest; where it stops, the
number of characters left tells the place.
-/
namespace SchemaScribe.Json

/-- Where reading stops: a complaint with the number of characters left, or a number too long. -/
inductive Stop where
  | malformed (complaint : Complaint) (left : Nat)
  | longInteger (digits : Nat)
deriving DecidableEq, Repr

/-- What one reader yields: a result and the characters after it. -/
abbrev Reading (α : Type) := Except Stop (α × List Char)

def refuse {α : Type} (complaint : Complaint) (s : List Char) : Reading α :=
  .error (.malformed complaint s.length)

def isBlank (c : Char) : Bool := c == ' ' || c == '\t' || c == '\n' || c == '\r'

def skipBlank (s : List Char) : List Char := s.dropWhile isBlank

/-! ## Strings -/

def escaped? : Char → Option Char
  | '"' => some '"'
  | '\\' => some '\\'
  | '/' => some '/'
  | 'b' => some '\x08'
  | 'f' => some '\x0c'
  | 'n' => some '\n'
  | 'r' => some '\r'
  | 't' => some '\t'
  | _ => none

/-- The number of a numeric escape. -/
def hexNumber? (digits : List Char) : Option Nat :=
  digits.foldl (fun n c => n.bind fun n => (Text.hexValue? c).map (16 * n + ·)) (some 0)

/-- Reads a string after its opening quote, as numbers of code points in which the two halves of a
surrogate pair are still apart. `left` is the number of characters from the opening quote on. -/
def readString (left : Nat) : List Char → Reading (List Nat)
  | [] => .error (.malformed .openString left)
  | '"' :: rest => .ok ([], rest)
  | ['\\'] => .error (.malformed .openString left)
  | '\\' :: 'u' :: a :: b :: c :: d :: rest =>
    match hexNumber? [a, b, c, d] with
    | some n =>
      if rest.isEmpty then .error (.malformed .unicodeEscape 5)
      else (readString left rest).map fun (ns, after) => (n :: ns, after)
    | none => .error (.malformed .unicodeEscape (rest.length + 5))
  | '\\' :: 'u' :: rest => .error (.malformed .unicodeEscape (rest.length + 1))
  | '\\' :: c :: rest =>
    match escaped? c with
    | some e => (readString left rest).map fun (ns, after) => (e.toNat :: ns, after)
    | none => .error (.malformed .escape (rest.length + 2))
  | c :: rest =>
    if c.toNat < 0x20 then .error (.malformed .controlCharacter (rest.length + 1))
    else (readString left rest).map fun (ns, after) => (c.toNat :: ns, after)

def isHighSurrogate (n : Nat) : Bool := 0xD800 ≤ n && n < 0xDC00
def isLowSurrogate (n : Nat) : Bool := 0xDC00 ≤ n && n < 0xE000

/-- Two halves that stand together make a character; one that is alone keeps its number. -/
def joinPairs : List Nat → List Nat
  | [] => []
  | [n] => [n]
  | high :: low :: rest =>
    if isHighSurrogate high && isLowSurrogate low then
      (0x10000 + (high - 0xD800) * 0x400 + (low - 0xDC00)) :: joinPairs rest
    else high :: joinPairs (low :: rest)

/-- A text, which is torn if it holds a half that stands alone. -/
def readText (s : List Char) : Reading Value :=
  (readString (s.length + 1) s).map fun (ns, rest) => (Value.ofCodes (joinPairs ns), rest)

/-! ## Numbers and words -/

/-- The whole digits of a number: a zero, or digits that do not start with one. -/
def readWhole (s : List Char) : Option (List Char × List Char) :=
  match s with
  | '0' :: rest => some (['0'], rest)
  | c :: _ =>
    if Text.isAsciiDigit c then some (s.takeWhile Text.isAsciiDigit, s.dropWhile Text.isAsciiDigit)
    else none
  | [] => none

/-- The digits after a point; without digits the point is not part of the number. -/
def readFraction (s : List Char) : List Char × List Char :=
  match s with
  | '.' :: rest =>
    let digits := rest.takeWhile Text.isAsciiDigit
    if digits.isEmpty then ([], s) else (digits, rest.dropWhile Text.isAsciiDigit)
  | _ => ([], s)

/-- The exponent; without digits its letter is not part of the number. -/
def readExponent (s : List Char) : Option Int × List Char :=
  match s with
  | c :: rest =>
    let (negative, body) := Numeral.splitSign rest
    let digits := body.takeWhile Text.isAsciiDigit
    if (c = 'e' ∨ c = 'E') ∧ digits ≠ [] then
      let n : Int := Text.naturalOf digits
      (some (if negative then -n else n), body.dropWhile Text.isAsciiDigit)
    else (none, s)
  | [] => (none, s)

/-- A number with a fraction or an exponent is a decimal one, any other a whole one, which may have
no more digits than the limit. -/
def readNumber (limit : Option Nat) (negative : Bool) (start s : List Char) : Reading Value :=
  match readWhole s with
  | none => refuse .value start
  | some (whole, rest) =>
    let (fraction, rest) := readFraction rest
    let (exponent, rest) := readExponent rest
    if fraction.isEmpty && exponent.isNone then
      if exceeds limit whole.length then .error (.longInteger whole.length)
      else
        let n : Int := Text.naturalOf whole
        .ok (.int (if negative then -n else n), rest)
    else
      .ok (.float (Binary64.ofDecimal negative (Text.naturalOf (whole ++ fraction))
        (exponent.getD 0 - fraction.length)), rest)

def words : List (String × Value) :=
  [("null", .null), ("true", .bool true), ("false", .bool false), ("NaN", .float .nan),
   ("Infinity", .float (.infinite false)), ("-Infinity", .float (.infinite true))]

def readWord? (s : List Char) : Option (Value × List Char) :=
  (words.find? fun word => word.1.toList.isPrefixOf s).map fun (word, value) =>
    (value, s.drop word.length)

/-- A value that is neither a string nor a list nor an object. -/
def readScalar (limit : Option Nat) (s : List Char) : Reading Value :=
  match readWord? s with
  | some reading => .ok reading
  | none =>
    match s with
    | '-' :: rest => readNumber limit true s rest
    | _ => readNumber limit false s s

/-! ## Lists and objects

The fuel bounds the depth of the calls; twice the number of characters is always enough. -/

mutual

def readValue (limit : Option Nat) : Nat → List Char → Reading Value
  | 0, s => refuse .value s
  | fuel + 1, s =>
    match s with
    | '"' :: rest => readText rest
    | '[' :: rest =>
      match skipBlank rest with
      | ']' :: after => .ok (.list [], after)
      | inner => (readItems limit fuel inner).map fun (items, after) => (.list items, after)
    | '\x7b' :: rest =>
      match skipBlank rest with
      | '\x7d' :: after => .ok (.dict [], after)
      | inner =>
        (readMembers limit fuel inner).map fun (members, after) =>
          (.dict (Entries.ofList members), after)
    | _ => readScalar limit s

def readItems (limit : Option Nat) : Nat → List Char → Reading (List Value)
  | 0, s => refuse .value s
  | fuel + 1, s =>
    (readValue limit fuel s).bind fun (item, rest) =>
      match skipBlank rest with
      | ']' :: after => .ok ([item], after)
      | ',' :: after =>
        (readItems limit fuel (skipBlank after)).map fun (items, end_) => (item :: items, end_)
      | other => refuse .comma other

def readMembers (limit : Option Nat) : Nat → List Char → Reading Entries
  | 0, s => refuse .value s
  | fuel + 1, s =>
    match s with
    | '"' :: rest =>
      (readText rest).bind fun (name, rest) =>
        match skipBlank rest with
        | ':' :: rest =>
          (readValue limit fuel (skipBlank rest)).bind fun (value, rest) =>
            match skipBlank rest with
            | '\x7d' :: after => .ok ([(name, value)], after)
            | ',' :: after =>
              (readMembers limit fuel (skipBlank after)).map fun (members, end_) =>
                ((name, value) :: members, end_)
            | other => refuse .comma other
        | other => refuse .colon other
    | _ => refuse .name s

end

/-- Reads a whole text. -/
def readAll (limit : Option Nat) (s : List Char) : Except Stop Value :=
  match s with
  | '\uFEFF' :: _ => .error (.malformed .byteOrderMark s.length)
  | _ =>
    (readValue limit (2 * s.length + 2) (skipBlank s)).bind fun (value, rest) =>
      match skipBlank rest with
      | [] => .ok value
      | other => .error (.malformed .afterEnd other.length)

/-- The value that a text stands for, or the first fault of the text. -/
def read (text : String) : Except Fault Value :=
  let s := text.toList
  match readAll (some Numeral.digitLimit) s with
  | .ok value => .ok value
  | .error (.malformed complaint left) => .error (.at s complaint (s.length - left))
  | .error (.longInteger digits) => .error (.longInteger digits)

end SchemaScribe.Json
