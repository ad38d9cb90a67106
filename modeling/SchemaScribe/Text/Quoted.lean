import SchemaScribe.Text.Join
import SchemaScribe.Text.UnprintableTable

/-! # Quoted text

Text and octets between quotes. The single quote is used unless the text holds one and no double
quote; the quote in use and the backslash are escaped, and what cannot be printed is written by its
number.
-/
namespace SchemaScribe.Text

/-- Characters that are shown by their number. The space is the only blank that is not. -/
def isUnprintable (c : Char) : Bool :=
  if c.toNat < 0x7F then c.toNat < 0x20
  else c.toNat = 0x7F || unprintableRuns.any fun (first, last) => first ≤ c.toNat && c.toNat ≤ last

/-- The shortest of the three numeric escapes that has room for the character. -/
def numericEscape (c : Char) : List Char :=
  let n := c.toNat
  if n < 0x100 then ['\\', 'x'] ++ hexDigits lowerHexDigit 2 n
  else if n < 0x10000 then ['\\', 'u'] ++ hexDigits lowerHexDigit 4 n
  else ['\\', 'U'] ++ hexDigits lowerHexDigit 8 n

def quoteChar (quote c : Char) : List Char :=
  if c = quote ∨ c = '\\' then ['\\', c]
  else if c = '\n' then ['\\', 'n']
  else if c = '\r' then ['\\', 'r']
  else if c = '\t' then ['\\', 't']
  else if isUnprintable c then numericEscape c
  else [c]

def quoteFor (s : List Char) : Char := if '\'' ∈ s ∧ '"' ∉ s then '"' else '\''

def quote (s : String) : String :=
  let q := quoteFor s.toList
  String.ofList (q :: s.toList.flatMap (quoteChar q) ++ [q])

/-- One octet between the given quotes: every octet that is no printable ASCII is a number. -/
def quoteOctet (q : Char) (octet : UInt8) : List Char :=
  let c := Char.ofNat octet.toNat
  if c = q ∨ c = '\\' then ['\\', c]
  else if c = '\n' then ['\\', 'n']
  else if c = '\r' then ['\\', 'r']
  else if c = '\t' then ['\\', 't']
  else if octet < 0x20 ∨ 0x7F ≤ octet then ['\\', 'x'] ++ hexDigits lowerHexDigit 2 octet.toNat
  else [c]

def quoteOctets (octets : List UInt8) : String :=
  let q := quoteFor (octets.map fun octet => Char.ofNat octet.toNat)
  String.ofList ('b' :: q :: octets.flatMap (quoteOctet q) ++ [q])

end SchemaScribe.Text
