import SchemaScribe.Text.Lines

/-! # Block strings

A text between triple quotes. A triple quote inside is written with a backslash before it. The
quotes stand on lines of their own unless the text is a single short line that neither its own end
nor its own indentation would change.
-/
namespace SchemaScribe.Sdl

/-- Writes a backslash before every triple quote. -/
def escapeTripleQuotes : List Char → List Char
  | '"' :: '"' :: '"' :: rest => '\\' :: '"' :: '"' :: '"' :: escapeTripleQuotes rest
  | c :: rest => c :: escapeTripleQuotes rest
  | [] => []

def isIndent (c : Char) : Bool := c == ' ' || c == '\t'

def startsIndented : List Char → Bool
  | c :: _ => isIndent c
  | [] => false

def endsWith (tail s : List Char) : Bool := tail.isSuffixOf s

def tripleQuote : List Char := ['"', '"', '"']

/-- Where line feeds are put between the quotes and the text. -/
structure BlockLayout where
  before : Bool
  after : Bool
deriving DecidableEq, Repr

/-- The longest text that shares a line with both its quotes. -/
def lineLimit : Nat := 70

def BlockLayout.of (text : List Char) : BlockLayout :=
  let escaped := escapeTripleQuotes text
  let lines := Text.splitLines escaped
  let single := lines.length == 1
  let indented := !single && lines.tail.all fun line => line.isEmpty || startsIndented line
  let tripleAtEnd := endsWith ('\\' :: tripleQuote) escaped
  let openEnd := (endsWith ['"'] text && !tripleAtEnd) || endsWith ['\\'] text
  let multiple := !single || lineLimit < text.length || openEnd || indented || tripleAtEnd
  let keepsIndent := single && startsIndented text
  { before := (multiple && !keepsIndent) || indented, after := multiple || openEnd }

def blockString (text : List Char) : List Char :=
  let layout := BlockLayout.of text
  tripleQuote ++ (if layout.before then ['\n'] else []) ++ escapeTripleQuotes text ++
    (if layout.after then ['\n'] else []) ++ tripleQuote

end SchemaScribe.Sdl
