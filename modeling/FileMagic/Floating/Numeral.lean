import FileMagic.Floating
import FileMagic.Numeral

/-! Numerals of real numbers: decimal digits with an optional point and exponent, single
underscores between digits, digits of any script, or the names of infinity and of the value
that is not a number in any case of letters. A numeral denotes the nearest double. -/

namespace FileMagic.Floating

/-- Underscores may stand only between two digits, wherever in the numeral. -/
def underscoresBetweenDigits (before : Char) : Text → Bool
  | [] => before ≠ '_'
  | c :: rest =>
    (if c = '_' then before.isDigit else before ≠ '_' || c.isDigit) &&
      underscoresBetweenDigits c rest

/-- The parts of a decimal numeral. -/
structure DecimalText where
  whole : Text
  fraction : Text
  exponent : Int
deriving Repr

/-- The exponent mark, its sign and digits; nothing else may follow. -/
def exponent? : Text → Option Int
  | [] => some 0
  | c :: rest =>
    if c = 'e' || c = 'E' then
      let (negative, digits) := Numeral.splitSign rest
      if digits.isEmpty || !digits.all Char.isDigit then none
      else
        let n := Numeral.positional 10 digits
        some (if negative then -n else n)
    else none

def decimalText? (t : Text) : Option DecimalText :=
  let whole := t.takeWhile Char.isDigit
  let (fraction, rest) := match t.dropWhile Char.isDigit with
    | '.' :: rest => (rest.takeWhile Char.isDigit, rest.dropWhile Char.isDigit)
    | rest => ([], rest)
  if whole.isEmpty && fraction.isEmpty then none
  else (exponent? rest).map fun e => ⟨whole, fraction, e⟩

/-- Decimals whose order is outside these bounds are infinite or zero in every format. -/
def orderBound : Int := 400

def DecimalText.magnitude (f : FloatFormat) (d : DecimalText) : Nat :=
  let digits := Numeral.positional 10 (d.whole ++ d.fraction)
  let scale := d.exponent - d.fraction.length
  let order := (Nat.toDigits 10 digits).length + scale
  if digits = 0 ∨ order < -orderBound then 0
  else if orderBound < order then f.infinity
  else if 0 ≤ scale then f.nearest (digits * 10 ^ scale.toNat) 1
  else f.nearest digits (10 ^ (-scale).toNat)

def asciiLower (c : Char) : Char :=
  if 'A' ≤ c && c ≤ 'Z' then Char.ofNat (c.toNat + 32) else c

def unsigned? (f : FloatFormat) (negative : Bool) (t : Text) : Option Floating :=
  let name := t.map asciiLower
  if name = "inf".toList ∨ name = "infinity".toList then some (.number negative f.infinity)
  else if name = "nan".toList then some .nan
  else (decimalText? t).map fun d => .number negative (d.magnitude f)

/-- The double that a numeral denotes. -/
def parse (text : Text) : Except Fault Double :=
  let body := Text.dropEnd isAsciiSpace ((text.map Numeral.plain).dropWhile isAsciiSpace)
  let (negative, rest) := Numeral.splitSign (body.filter (· ≠ '_'))
  match underscoresBetweenDigits ' ' body, unsigned? .double negative rest with
  | true, some v => .ok v
  | _, _ => .error (.realNumeral text)

end FileMagic.Floating
