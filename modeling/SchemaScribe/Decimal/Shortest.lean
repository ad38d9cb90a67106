import SchemaScribe.Decimal.Binary64

/-! # The shortest decimal that reads back

For a finite number the fewest decimal digits such that the number is the nearest one to them, and
among those of that length the nearest to the number. For each length the two neighbours of the
number on that decimal grid are tested, in exact arithmetic.
-/
namespace SchemaScribe.Binary64

/-- The decimal exponent of the leading digit of a positive ratio. -/
def leadingExponent (num den : Nat) : Int :=
  if den ≤ num then (digitCount (num / den) : Int) - 1
  else -(digitCount ((den + num - 1) / num - 1) : Int)

/-- The reals that round to a positive number: the bounds are over the same denominator as the
number, and belong to the interval when the mantissa is even. -/
structure Rounding where
  below : Nat
  value : Nat
  above : Nat
  den : Nat
  closed : Bool

/-- The interval of a positive number, with the number and its bounds in quarters of its last
place. Below a power of two the spacing is half as wide. -/
def Rounding.of (mantissa : Nat) (exponent : Int) : Rounding :=
  let quarters (n : Nat) : Nat × Nat := scaleRatio n 1 (2 - exponent)
  let gapBelow := if 2 * mantissa = mantissaBound ∧ minExponent < exponent then 1 else 2
  { below := (quarters (4 * mantissa - gapBelow)).1
    value := (quarters (4 * mantissa)).1
    above := (quarters (4 * mantissa + 2)).1
    den := (quarters 1).2
    closed := mantissa % 2 = 0 }

/-- Does the decimal `digits * 10 ^ exponent` round to the number? -/
def Rounding.holds (r : Rounding) (digits : Nat) (exponent : Int) : Bool :=
  let left := if 0 ≤ exponent then digits * Nat.pow 10 exponent.toNat * r.den else digits * r.den
  let scale := if 0 ≤ exponent then 1 else Nat.pow 10 (-exponent).toNat
  if r.closed then r.below * scale ≤ left && left ≤ r.above * scale
  else r.below * scale < left && left < r.above * scale

/-- The neighbours of the number on the grid of the decimal exponent: the one below it, and whether
the number lies nearer to that one than to the next (`lt`), nearer to the next (`gt`) or halfway. -/
def Rounding.neighbour (r : Rounding) (exponent : Int) : Nat × Ordering :=
  let num := if 0 ≤ exponent then r.value else r.value * Nat.pow 10 (-exponent).toNat
  let den := if 0 ≤ exponent then r.den * Nat.pow 10 exponent.toNat else r.den
  (num / den, compare (2 * (num % den)) den)

/-- The nearer of the two neighbours on one grid that round to the number; halfway, the even one. -/
def Rounding.onGrid? (r : Rounding) (exponent : Int) : Option Nat :=
  let (low, side) := r.neighbour exponent
  let lowFirst := match side with
    | .lt => true
    | .gt => false
    | .eq => low % 2 = 0
  let candidates := if lowFirst then [low, low + 1] else [low + 1, low]
  candidates.find? fun digits => r.holds digits exponent

/-- Tries the grids from the coarser to the finer ones. Seventeen digits always suffice. -/
def Rounding.search (r : Rounding) (exponent : Int) : Nat → Nat × Int
  | 0 => ((r.neighbour exponent).1, exponent)
  | steps + 1 =>
    match r.onGrid? exponent with
    | some digits => (digits, exponent)
    | none => r.search (exponent - 1) steps

/-- The shortest digits of a positive number with the exponent of the last one. -/
def shortest (mantissa : Nat) (exponent : Int) : Nat × Int :=
  let r := Rounding.of mantissa exponent
  r.search (leadingExponent r.value r.den) 17

def dropZeros (digits : List Char) (exponent : Int) : List Char × Int :=
  let kept := (digits.reverse.dropWhile (· == '0')).reverse
  (kept, exponent + (digits.length - kept.length : Nat))

/-- How a number is laid out: where positional notation begins and ends, by the exponent of the
leading digit. -/
structure Layout where
  firstPositional : Int
  endPositional : Int

/-- Positional from four zeros after the point up to sixteen digits before it. -/
def Layout.standard : Layout := ⟨-4, 16⟩

/-- The exponent with its sign and at least two digits. -/
def exponentText (e : Int) : String :=
  let digits := toString e.natAbs
  (if e < 0 then "-" else "+") ++ (if digits.length < 2 then "0" ++ digits else digits)

/-- A digit string with the exponent of its last digit, laid out. A positional number always shows
a digit after its point. -/
def Layout.render (layout : Layout) (digits : List Char) (exponent : Int) : String :=
  let leading := exponent + digits.length - 1
  if leading < layout.firstPositional ∨ layout.endPositional ≤ leading then
    let mantissa := match digits with
      | first :: second :: rest => String.ofList (first :: '.' :: second :: rest)
      | short => String.ofList short
    mantissa ++ "e" ++ exponentText leading
  else if 0 ≤ exponent then
    String.ofList (digits ++ List.replicate exponent.toNat '0') ++ ".0"
  else if leading < 0 then
    "0." ++ String.ofList (List.replicate (-leading - 1).toNat '0' ++ digits)
  else
    let whole := (leading + 1).toNat
    String.ofList (digits.take whole) ++ "." ++ String.ofList (digits.drop whole)

def text : Binary64 → String
  | .nan => "nan"
  | .infinite negative => if negative then "-inf" else "inf"
  | .finite negative mantissa exponent =>
    let magnitude :=
      if mantissa = 0 then "0.0"
      else
        let (digits, last) := shortest mantissa exponent
        let (kept, end10) := dropZeros (Nat.toDigits 10 digits) last
        Layout.standard.render kept end10
    (if negative then "-" else "") ++ magnitude

end SchemaScribe.Binary64
