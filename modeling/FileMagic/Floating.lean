import FileMagic.Text.Basic

/-! Floating-point numbers of the two binary interchange formats, by their bits, with exact
arithmetic on naturals: no operation of the machine's floating-point unit is involved. A
magnitude is read as `significand * 2 ^ exponent`; the bits of magnitudes grow with them, so
rounding is a matter of finding the right natural number. -/

namespace FileMagic

/-- The number of significant bits and the width of the exponent field. -/
structure FloatFormat where
  precision : Nat
  exponentBits : Nat

namespace FloatFormat

def single : FloatFormat := ⟨24, 8⟩
def double : FloatFormat := ⟨53, 11⟩

/-- The exponent of the smallest positive magnitude. -/
def leastExponent (f : FloatFormat) : Int := 3 - 2 ^ (f.exponentBits - 1) - f.precision

/-- The bits of infinity: every magnitude from here on is infinite or no number. -/
def infinity (f : FloatFormat) : Nat := (2 ^ f.exponentBits - 1) * 2 ^ (f.precision - 1)

/-- The weight of the sign bit. -/
def signBit (f : FloatFormat) : Nat := 2 ^ (f.precision - 1 + f.exponentBits)

/-- Significand and exponent of a finite magnitude. -/
def parts (f : FloatFormat) (magnitude : Nat) : Nat × Int :=
  let hidden := 2 ^ (f.precision - 1)
  let field := magnitude / hidden
  if field = 0 then (magnitude, f.leastExponent)
  else (magnitude % hidden + hidden, f.leastExponent + field - 1)

end FloatFormat

/-- A quotient rounded to the nearest natural, a half to the even one. -/
def roundQuotient (num den : Nat) : Nat :=
  let q := num / den
  let twice := 2 * (num % den)
  if twice < den then q
  else if den < twice then q + 1
  else if q % 2 = 0 then q else q + 1

/-- The greatest `e` with `2 ^ e ≤ num / den`, for positive arguments. -/
def binaryOrder (num den : Nat) : Int :=
  let e : Int := (Nat.log2 num : Int) - Nat.log2 den
  let below : Bool := if 0 ≤ e then num < den * 2 ^ e.toNat else num * 2 ^ (-e).toNat < den
  if below then e - 1 else e

/-- The bits of the magnitude nearest to `num / den`. What lies beyond the largest finite
one becomes infinity. -/
def FloatFormat.nearest (f : FloatFormat) (num den : Nat) : Nat :=
  if num = 0 then 0
  else
    let exponent := max (binaryOrder num den - (f.precision - 1 : Nat)) f.leastExponent
    let significand :=
      if 0 ≤ exponent then roundQuotient num (den * 2 ^ exponent.toNat)
      else roundQuotient (num * 2 ^ (-exponent).toNat) den
    min ((exponent - f.leastExponent).toNat * 2 ^ (f.precision - 1) + significand) f.infinity

/-- A value of a format: every bit pattern with an all-ones exponent and a fraction is the one
value that is not a number. -/
inductive Floating where
  | nan
  | number (negative : Bool) (magnitude : Nat)
deriving DecidableEq, Repr

namespace Floating

/-- The value of a word of the format. -/
def ofBits (f : FloatFormat) (word : Nat) : Floating :=
  let magnitude := word % f.signBit
  if f.infinity < magnitude then .nan else .number (f.signBit ≤ word) magnitude

/-- The word that holds a value, for a number. -/
def toBits? (f : FloatFormat) : Floating → Option Nat
  | .nan => none
  | .number negative magnitude => some ((if negative then f.signBit else 0) + magnitude)

/-- A value of one format as the nearest one of another. -/
def convert (source target : FloatFormat) : Floating → Floating
  | .nan => .nan
  | .number negative magnitude =>
    if magnitude = source.infinity then .number negative target.infinity
    else
      let (significand, exponent) := source.parts magnitude
      .number negative <|
        if 0 ≤ exponent then target.nearest (significand * 2 ^ exponent.toNat) 1
        else target.nearest significand (2 ^ (-exponent).toNat)

def isInfinite (f : FloatFormat) : Floating → Bool
  | .nan => false
  | .number _ magnitude => magnitude = f.infinity

/-- The position of a number in the order of its format: zeros of both signs share one. -/
def rank? : Floating → Option Int
  | .nan => none
  | .number negative magnitude => some (if negative then -magnitude else magnitude)

def ofInt (f : FloatFormat) (n : Int) : Floating :=
  .number (n < 0) (f.nearest n.natAbs 1)

/-- How an integer compares with a number of the format, infinities included. -/
def compareInt (f : FloatFormat) (n : Int) : Floating → Option Ordering
  | .nan => none
  | .number negative magnitude =>
    if magnitude = f.infinity then some (if negative then .gt else .lt)
    else
      let (significand, exponent) := f.parts magnitude
      let signed : Int := if negative then -significand else significand
      if 0 ≤ exponent then some (compare n (signed * 2 ^ exponent.toNat))
      else some (compare (n * 2 ^ (-exponent).toNat) signed)

end Floating

/-- A double-precision value. -/
abbrev Double := Floating

end FileMagic
