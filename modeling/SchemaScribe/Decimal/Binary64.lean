/-! # Double-precision numbers

The values of the binary interchange format with 64 bits, held by their meaning: a finite number is
a mantissa times a power of two. A ratio of natural numbers rounds to the nearest of them, a tie
to the even mantissa.
-/
namespace SchemaScribe

/-- A double-precision number. A finite one is `mantissa * 2 ^ exponent` with its sign. -/
inductive Binary64 where
  | nan
  | infinite (negative : Bool)
  | finite (negative : Bool) (mantissa : Nat) (exponent : Int)
deriving DecidableEq, Repr, Inhabited

namespace Binary64

def minExponent : Int := -1074

def maxExponent : Int := 971

/-- The first mantissa that has too many bits. -/
def mantissaBound : Nat := Nat.pow 2 53

def zero (negative : Bool) : Binary64 := .finite negative 0 minExponent

/-- The quotient rounded to the nearest natural number, a half to the even one. -/
def roundHalfEven (num den : Nat) : Nat :=
  let q := num / den
  let r := num % den
  if 2 * r < den then q
  else if 2 * r = den then q + q % 2
  else q + 1

/-- A ratio over a power of two, as a ratio. -/
def scaleRatio (num den : Nat) (exponent : Int) : Nat × Nat :=
  if 0 ≤ exponent then (num, den * Nat.pow 2 exponent.toNat)
  else (num * Nat.pow 2 (-exponent).toNat, den)

/-- The exponent at which the ratio has a mantissa of full length, or the smallest one. -/
def exponentFor (num den : Nat) : Int :=
  let guess : Int := (num.log2 : Int) - den.log2 - 53
  let scaled := scaleRatio num den guess
  let full := if scaled.1 / scaled.2 < mantissaBound then guess else guess + 1
  max full minExponent

def ofRatio (negative : Bool) (num den : Nat) : Binary64 :=
  if num = 0 then zero negative
  else
    let exponent := exponentFor num den
    let scaled := scaleRatio num den exponent
    let mantissa := roundHalfEven scaled.1 scaled.2
    let rounded : Nat × Int :=
      if mantissa = mantissaBound then (mantissa / 2, exponent + 1) else (mantissa, exponent)
    if maxExponent < rounded.2 then .infinite negative else .finite negative rounded.1 rounded.2

def digitCount (n : Nat) : Nat := (Nat.toDigits 10 n).length

/-- The number nearest to `digits * 10 ^ exponent`. Powers of ten beyond the range of the format
are not computed. -/
def ofDecimal (negative : Bool) (digits : Nat) (exponent : Int) : Binary64 :=
  let magnitude := digitCount digits + exponent
  if digits = 0 then zero negative
  else if 310 < magnitude then .infinite negative
  else if magnitude < -330 then zero negative
  else if 0 ≤ exponent then ofRatio negative (digits * Nat.pow 10 exponent.toNat) 1
  else ofRatio negative digits (Nat.pow 10 (-exponent).toNat)

def isFinite : Binary64 → Bool
  | .finite .. => true
  | _ => false

def isZero : Binary64 → Bool
  | .finite _ m _ => m == 0
  | _ => false

/-- A signed whole number as a mantissa and an exponent of two that compares with another one:
both mantissas are brought to the smaller exponent. -/
def alignedLess (a : Int) (e : Int) (b : Int) (f : Int) : Bool :=
  let low := min e f
  a * Nat.pow 2 (e - low).toNat < b * Nat.pow 2 (f - low).toNat

def signed (negative : Bool) (m : Nat) : Int := if negative then -(m : Int) else m

/-- The order of the numbers on the line; nothing stands before or after what is no number. -/
def less : Binary64 → Binary64 → Bool
  | .nan, _ => false
  | _, .nan => false
  | .infinite a, .infinite b => a && !b
  | .infinite a, .finite .. => a
  | .finite .., .infinite b => !b
  | .finite a m e, .finite b n f => alignedLess (signed a m) e (signed b n) f

/-- A whole number as a number that no rounding has touched. -/
def ofIntExact (n : Int) : Binary64 := .finite (n < 0) n.natAbs 0

/-- Equality of the numbers on the line: both zeros are one number, and what is no number differs
from everything. -/
def same (x y : Binary64) : Bool :=
  match x, y with
  | .nan, _ => false
  | _, .nan => false
  | x, y => !less x y && !less y x

/-- The whole number towards zero. -/
def truncate (negative : Bool) (mantissa : Nat) (exponent : Int) : Int :=
  signed negative
    (if 0 ≤ exponent then mantissa * Nat.pow 2 exponent.toNat
      else mantissa / Nat.pow 2 (-exponent).toNat)

end Binary64
end SchemaScribe
