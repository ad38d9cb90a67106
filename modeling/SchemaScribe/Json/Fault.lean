/-! # Faults in JSON text

What is wrong with a text that is no JSON, and where. A place is counted in characters from the
start of the text; lines end at line feeds only.
-/
namespace SchemaScribe.Json

/-- What a reader misses or refuses at one place. -/
inductive Complaint where
  | value
  | afterEnd
  | name
  | colon
  | comma
  | openString
  | controlCharacter
  | escape
  | unicodeEscape
  | byteOrderMark
deriving DecidableEq, Repr

def Complaint.text : Complaint → String
  | .value => "Expecting value"
  | .afterEnd => "Extra data"
  | .name => "Expecting property name enclosed in double quotes"
  | .colon => "Expecting ':' delimiter"
  | .comma => "Expecting ',' delimiter"
  | .openString => "Unterminated string starting at"
  | .controlCharacter => "Invalid control character at"
  | .escape => "Invalid \\escape"
  | .unicodeEscape => "Invalid \\uXXXX escape"
  | .byteOrderMark => "Unexpected UTF-8 BOM (decode using utf-8-sig)"

/-- A fault of a text: a complaint about a place, or a whole number with too many digits. -/
inductive Fault where
  | malformed (complaint : Complaint) (line column offset : Nat)
  | longInteger (digits : Nat)
deriving DecidableEq, Repr

/-- A complaint about the character that has `offset` characters of the text before it. -/
def Fault.at (text : List Char) (complaint : Complaint) (offset : Nat) : Fault :=
  let before := text.take offset
  .malformed complaint (before.count '\n' + 1)
    ((before.reverse.takeWhile (· != '\n')).length + 1) offset

/-- Are there more digits than the limit, if there is one? -/
def exceeds (limit : Option Nat) (digits : Nat) : Bool := limit.any (· < digits)

/-- The refusal of a whole number with too many digits, with what is told of their number. -/
def digitLimitText (limit : Nat) (told : String) : String :=
  s!"Exceeds the limit ({limit} digits) for integer string conversion" ++ told ++
    "; use sys.set_int_max_str_digits() to increase the limit"

/-- The refusal of a run of digits that is too long to be read as a whole number. -/
def longIntegerText (limit digits : Nat) : String :=
  digitLimitText limit s!": value has {digits} digits"

def Fault.message (limit : Nat) : Fault → String
  | .malformed complaint line column offset =>
    s!"{complaint.text}: line {line} column {column} (char {offset})"
  | .longInteger digits => longIntegerText limit digits

end SchemaScribe.Json
