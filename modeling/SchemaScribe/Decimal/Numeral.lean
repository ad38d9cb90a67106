import SchemaScribe.Decimal.Binary64
import SchemaScribe.Text.Blank
import SchemaScribe.Text.Digit

/-! # Numbers written by hand

Whole and decimal numbers as people write them: white space around the number, a sign, digits of any
script, and single underscores between digits.
-/
namespace SchemaScribe.Numeral

/-- The longest run of digits that is read as a whole number, or written for one. -/
def digitLimit : Nat := 4300

/-- The number of digits of a whole number, without its sign. -/
def digitCount (n : Int) : Nat := (Nat.toDigits 10 n.natAbs).length

/-- Digits of all scripts written as ASCII digits. -/
def asciiDigits (s : List Char) : List Char :=
  s.map fun c => match Text.digitValue? c with
    | some n => Nat.digitChar n
    | none => c

/-- The sign in front of a number, as `true` for minus, and the rest. -/
def splitSign : List Char → Bool × List Char
  | '-' :: rest => (true, rest)
  | '+' :: rest => (false, rest)
  | rest => (false, rest)

/-- Reads digits with single underscores between them, up to the first character that is neither.
`ready` tells whether an underscore may come next. There is no result if an underscore is not
between two digits. -/
def digitRun (ready : Bool) : List Char → Option (List Char × List Char)
  | [] => if ready then some ([], []) else none
  | c :: rest =>
    if Text.isAsciiDigit c then (digitRun true rest).map fun (digits, left) => (c :: digits, left)
    else if c = '_' then
      if ready then
        match rest with
        | next :: _ => if Text.isAsciiDigit next then digitRun false rest else none
        | [] => none
      else none
    else if ready then some ([], c :: rest) else none

inductive IntegerFault where
  | notANumber
  | tooLong (digits : Nat)
deriving DecidableEq, Repr

/-- Reads a whole number. Too long a run of digits is refused before what follows it is read. -/
def integer (s : String) : Except IntegerFault Int :=
  let (negative, body) := splitSign (Text.trimEnds Text.isNumeralBlank (asciiDigits s.toList))
  match digitRun false body with
  | none => .error .notANumber
  | some (digits, rest) =>
    if digitLimit < digits.length then .error (.tooLong digits.length)
    else if rest ≠ [] then .error .notANumber
    else
      let n : Int := Text.naturalOf digits
      .ok (if negative then -n else n)

/-- Drops the underscores, which must stand between two digits. -/
def dropUnderscores (afterDigit : Bool) : List Char → Option (List Char)
  | [] => some []
  | '_' :: rest =>
    match rest with
    | next :: _ =>
      if afterDigit && Text.isAsciiDigit next then dropUnderscores false rest else none
    | [] => none
  | c :: rest => (dropUnderscores (Text.isAsciiDigit c) rest).map (c :: ·)

/-- The exponent at the end of a decimal number: nothing, or a marker and a signed whole number. -/
def decimalExponent? : List Char → Option Int
  | [] => some 0
  | c :: rest =>
    let (negative, digits) := splitSign rest
    if (c = 'e' ∨ c = 'E') ∧ digits ≠ [] ∧ digits.all Text.isAsciiDigit then
      some (if negative then -(Text.naturalOf digits : Int) else Text.naturalOf digits)
    else none

/-- An unsigned decimal number: digits with at most one point among them and an exponent. -/
def unsignedDecimal? (negative : Bool) (s : List Char) : Option Binary64 :=
  let whole := s.takeWhile Text.isAsciiDigit
  let rest := s.dropWhile Text.isAsciiDigit
  let (fraction, rest) := match rest with
    | '.' :: after => (after.takeWhile Text.isAsciiDigit, after.dropWhile Text.isAsciiDigit)
    | _ => ([], rest)
  if whole = [] ∧ fraction = [] then none
  else
    (decimalExponent? rest).map fun exponent =>
      Binary64.ofDecimal negative (Text.naturalOf (whole ++ fraction)) (exponent - fraction.length)

/-- Reads a decimal number, an infinity or the word for what is no number. -/
def decimal? (s : String) : Option Binary64 :=
  let trimmed := Text.trimEnds Text.isNumeralBlank (asciiDigits s.toList)
  (dropUnderscores false trimmed).bind fun body =>
    let (negative, body) := splitSign body
    let word := String.ofList (body.map Char.toLower)
    if word = "nan" then some .nan
    else if word = "inf" ∨ word = "infinity" then some (.infinite negative)
    else unsignedDecimal? negative body

end SchemaScribe.Numeral
