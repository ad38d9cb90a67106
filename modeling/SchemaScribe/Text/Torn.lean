import SchemaScribe.Text.LetterCase
import SchemaScribe.Text.Quoted

/-! # Torn texts

A character beyond the first plane is sent as two halves, the surrogates. A half that stands alone
is no character. A text that holds one is torn: it can be kept, compared and shown like any other,
but there are no octets for it.
-/
namespace SchemaScribe.Text

/-- A half of a surrogate pair, counted from the first of them. -/
structure Half where
  index : Fin 0x800
deriving DecidableEq, Repr

namespace Half

/-- The number of a half among those of the characters. -/
def number (half : Half) : Nat := 0xD800 + half.index.val

def ofNumber? (n : Nat) : Option Half :=
  if h : 0xD800 ≤ n ∧ n < 0xE000 then some ⟨⟨n - 0xD800, by omega⟩⟩ else none

/-- A half as it is shown where it cannot stand: by its number. -/
def shown (half : Half) : List Char := ['\\', 'u'] ++ hexDigits lowerHexDigit 4 half.number

end Half

/-- A text in which halves stand alone: what comes before the first of them, and each with what
follows it. -/
structure Torn where
  front : String
  half : Half
  behind : String
  more : List (Half × String) := []
deriving DecidableEq, Repr

namespace Torn

def pieces (text : Torn) : List (Half × String) := (text.half, text.behind) :: text.more

/-- The text with each character and each half written in a way of its own. -/
def written (text : Torn) (char : Char → List Char) (half : Half → List Char) : List Char :=
  text.front.toList.flatMap char ++
    text.pieces.flatMap fun (h, behind) => half h ++ behind.toList.flatMap char

/-- The text with a character in the place of every half. -/
def filled (text : Torn) (standIn : Half → Char) : String :=
  String.ofList (text.written (fun c => [c]) fun half => [standIn half])

def shown (text : Torn) : String := String.ofList (text.written (fun c => [c]) Half.shown)

def quoted (text : Torn) : String :=
  let q := quoteFor (text.written (fun c => [c]) fun _ => [])
  String.ofList (q :: text.written (quoteChar q) Half.shown ++ [q])

/-- The lower case of the text. A half ends a word. -/
def lower (text : Torn) : Torn where
  front := Text.lower text.front
  half := text.half
  behind := Text.lower text.behind
  more := text.more.map fun (half, behind) => (half, Text.lower behind)

/-- The numbers of the characters and halves. -/
def codes (text : Torn) : List Nat :=
  text.front.toList.map Char.toNat ++
    text.pieces.flatMap fun (half, behind) => half.number :: behind.toList.map Char.toNat

end Torn

/-- The characters with these numbers up to the first half, and each half with those behind it. -/
def segments : List Nat → List Char × List (Half × List Char)
  | [] => ([], [])
  | n :: rest =>
    let (front, pieces) := segments rest
    match Half.ofNumber? n with
    | some half => ([], (half, front) :: pieces)
    | none => (Char.ofNat n :: front, pieces)

/-- No character has the number of a half. -/
theorem toNat_cases (c : Char) :
    c.toNat < 0xD800 ∨ 0xDFFF < c.toNat ∧ c.toNat < 0x110000 := c.valid

theorem ofNumber?_toNat (c : Char) : Half.ofNumber? c.toNat = none := by
  have hc : ¬ (0xD800 ≤ c.toNat ∧ c.toNat < 0xE000) := by
    have hcases := toNat_cases c
    omega
  exact dif_neg hc

/-- Characters alone make one segment. -/
theorem segments_map_toNat (text : List Char) : segments (text.map Char.toNat) = (text, []) := by
  induction text with
  | nil => rfl
  | cons c text ih => rw [List.map_cons, segments, ih, ofNumber?_toNat, Char.ofNat_toNat]

end SchemaScribe.Text
