/-! # Octets read as text

The text that octets stand for in one of three charsets. Octets that stand for nothing are read as
the replacement character: in ASCII each of them alone, in UTF-8 each longest start of a sequence
that cannot be completed.
-/
namespace SchemaScribe.Text

inductive Charset where
  | utf8
  | latin1
  | ascii
deriving DecidableEq, Repr

/-- The names that charsets go by, in lower case and with underscores between their parts. -/
def charsetNames : List (String × Charset) :=
  [("utf_8", .utf8), ("utf8", .utf8), ("u8", .utf8), ("utf", .utf8), ("cp65001", .utf8),
   ("latin_1", .latin1), ("latin1", .latin1), ("latin", .latin1), ("l1", .latin1),
   ("iso_8859_1", .latin1), ("iso8859_1", .latin1), ("iso8859", .latin1), ("8859", .latin1),
   ("iso_8859_1_1987", .latin1), ("iso_ir_100", .latin1), ("cp819", .latin1), ("ibm819", .latin1),
   ("csisolatin1", .latin1),
   ("ascii", .ascii), ("us_ascii", .ascii), ("us", .ascii), ("646", .ascii), ("iso646_us", .ascii),
   ("ansi_x3.4_1968", .ascii), ("ansi_x3_4_1968", .ascii), ("ansi_x3.4_1986", .ascii),
   ("iso_646.irv_1991", .ascii), ("iso_ir_6", .ascii), ("cp367", .ascii), ("ibm367", .ascii),
   ("csascii", .ascii)]

/-- Letters, digits and points stand in the parts of a name; all else separates parts. -/
def isNamePart (c : Char) : Bool := c.isAlphanum || c == '.'

/-- The parts of a name in lower case, with an underscore before each part but the first. -/
def nameKey (first : Bool) : List Char → List Char
  | [] => []
  | [c] => if isNamePart c then [c.toLower] else []
  | c :: next :: rest =>
    if isNamePart c then c.toLower :: nameKey false (next :: rest)
    else if !first && isNamePart next then '_' :: nameKey false (next :: rest)
    else nameKey first (next :: rest)

def Charset.named (name : String) : Charset :=
  (charsetNames.lookup (String.ofList (nameKey true name.toList))).getD .utf8

def replacement : Char := '\uFFFD'

/-- What UTF-8 expects next: a first octet, or further octets of a sequence, the next one between
two bounds. -/
inductive Utf8State where
  | start
  | inside (more : Nat) (low high : Nat) (value : Nat)

def utf8Start (octet : Nat) : List Char × Utf8State :=
  if octet < 0x80 then ([Char.ofNat octet], .start)
  else if octet < 0xC2 then ([replacement], .start)
  else if octet < 0xE0 then ([], .inside 1 0x80 0xBF (octet - 0xC0))
  else if octet = 0xE0 then ([], .inside 2 0xA0 0xBF 0)
  else if octet = 0xED then ([], .inside 2 0x80 0x9F 0xD)
  else if octet < 0xF0 then ([], .inside 2 0x80 0xBF (octet - 0xE0))
  else if octet = 0xF0 then ([], .inside 3 0x90 0xBF 0)
  else if octet < 0xF4 then ([], .inside 3 0x80 0xBF (octet - 0xF0))
  else if octet = 0xF4 then ([], .inside 3 0x80 0x8F 4)
  else ([replacement], .start)

/-- One octet: the characters that are complete now, and what is expected next. -/
def utf8Step (state : Utf8State) (octet : Nat) : List Char × Utf8State :=
  match state with
  | .start => utf8Start octet
  | .inside more low high value =>
    if low ≤ octet ∧ octet ≤ high then
      let value := value * 0x40 + (octet - 0x80)
      if more ≤ 1 then ([Char.ofNat value], .start)
      else ([], .inside (more - 1) 0x80 0xBF value)
    else
      let (chars, next) := utf8Start octet
      (replacement :: chars, next)

def utf8From (state : Utf8State) : List UInt8 → List Char
  | [] =>
    match state with
    | .start => []
    | .inside .. => [replacement]
  | octet :: rest =>
    let (chars, next) := utf8Step state octet.toNat
    chars ++ utf8From next rest

def Charset.decode (charset : Charset) (octets : List UInt8) : String :=
  String.ofList <|
    match charset with
    | .utf8 => utf8From .start octets
    | .latin1 => octets.map fun octet => Char.ofNat octet.toNat
    | .ascii => octets.map fun octet => if octet < 0x80 then Char.ofNat octet.toNat else replacement

end SchemaScribe.Text
