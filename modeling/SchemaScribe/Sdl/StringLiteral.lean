import SchemaScribe.Text.Join

/-! # String literals

A text on one line between double quotes. Quotes, backslashes and control characters are escaped,
the usual ones by a letter and the others by their number.
-/
namespace SchemaScribe.Sdl

def literalChar (c : Char) : List Char :=
  if c = '"' then ['\\', '"']
  else if c = '\\' then ['\\', '\\']
  else if c = '\x08' then ['\\', 'b']
  else if c = '\t' then ['\\', 't']
  else if c = '\n' then ['\\', 'n']
  else if c = '\x0c' then ['\\', 'f']
  else if c = '\r' then ['\\', 'r']
  else if c.toNat < 0x20 ∨ (0x7F ≤ c.toNat ∧ c.toNat < 0xA0) then
    ['\\', 'u'] ++ Text.hexDigits Text.upperHexDigit 4 c.toNat
  else [c]

def stringLiteral (text : List Char) : List Char := '"' :: text.flatMap literalChar ++ ['"']

end SchemaScribe.Sdl
