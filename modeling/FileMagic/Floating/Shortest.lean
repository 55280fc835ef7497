import FileMagic.Floating
import FileMagic.Text.Number

/-! The shortest decimal that reads back. For each count of digits the two neighbours of the
value on that decimal grid are tried; the first count with one that rounds to the value wins,
and of two such neighbours the nearer, or the even one when neither is nearer. -/

namespace FileMagic

/-- A positive decimal: `digits * 10 ^ scale`. -/
structure Decimal where
  digits : Nat
  scale : Int
deriving DecidableEq, Repr

namespace Decimal

/-- Numerator and denominator. -/
def ratio (d : Decimal) : Nat × Nat :=
  if 0 ≤ d.scale then (d.digits * 10 ^ d.scale.toNat, 1) else (d.digits, 10 ^ (-d.scale).toNat)

/-- The magnitude that the decimal reads as. -/
def magnitude (f : FloatFormat) (d : Decimal) : Nat :=
  f.nearest d.ratio.1 d.ratio.2

/-- Whether `d` is nearer to `num / den` than the next point of its grid; of two at the same
distance the one with an even last digit is taken. -/
def nearer (num den : Nat) (d : Decimal) : Bool :=
  let (a, b) := ratio ⟨2 * d.digits + 1, d.scale⟩
  let (l, r) := (2 * num * b, a * den)
  l < r || (l = r && d.digits % 2 = 0)

/-- The decimal of `count` digits next to `num / den` that reads as `bits`, if any. The first
digit has the weight `10 ^ order`. -/
def candidate? (f : FloatFormat) (bits num den : Nat) (order : Int) (count : Nat) :
    Option Decimal :=
  let scale := order - count + 1
  let low := if 0 ≤ scale then num / (den * 10 ^ scale.toNat)
    else num * 10 ^ (-scale).toNat / den
  let below : Decimal := ⟨low, scale⟩
  let above : Decimal := ⟨low + 1, scale⟩
  if below.magnitude f = bits then
    some (if above.magnitude f ≠ bits || nearer num den below then below else above)
  else if above.magnitude f = bits then some above
  else none

/-- A power of ten that lifts every positive magnitude of the formats above one. -/
def lift : Nat := 330

/-- The weight of the first digit of `num / den`. -/
def order (num den : Nat) : Int :=
  (Nat.toDigits 10 (num * 10 ^ lift / den)).length - 1 - lift

/-- Seventeen digits suffice for either format. -/
def digitLimit : Nat := 17

/-- The shortest decimal of a positive finite magnitude. -/
def shortest (f : FloatFormat) (bits : Nat) : Decimal :=
  let (significand, exponent) := f.parts bits
  let (num, den) := if 0 ≤ exponent then (significand * 2 ^ exponent.toNat, 1)
    else (significand, 2 ^ (-exponent).toNat)
  let top := order num den
  ((List.range digitLimit).findSome? fun n => candidate? f bits num den top (n + 1)).getD
    ⟨significand, 0⟩

end Decimal

/-- How numbers are laid out: positional notation from `10 ^ least` up to, but not
including, `10 ^ most`, and always with a mark or an exponent. -/
structure NumberLayout where
  least : Int
  most : Int
  exponentDigits : Nat

/-- Numbers in messages and in the shown form of a rule. -/
def shownNumber : NumberLayout := ⟨-4, 16, 2⟩

namespace NumberLayout

def withoutTrailingZeros (digits : Text) : Text := Text.dropEnd (· = '0') digits

/-- Digits with the decimal point after the first `point` of them. -/
def positional (digits : Text) (point : Int) : Text :=
  if point ≤ 0 then
    ['0', '.'] ++ List.replicate (-point).toNat '0' ++ digits
  else
    let whole := digits.take point.toNat
    let part := digits.drop point.toNat
    whole ++ List.replicate (point.toNat - digits.length) '0' ++ ['.'] ++
      (if part.isEmpty then ['0'] else part)

def scientific (l : NumberLayout) (digits : Text) (exponent : Int) : Text :=
  let mantissa := match digits with
    | [] => []
    | [d] => [d]
    | d :: rest => d :: '.' :: rest
  mantissa ++ ['e', if exponent < 0 then '-' else '+'] ++
    Text.padStart l.exponentDigits '0' (Text.ofNat exponent.natAbs)

def decimal (l : NumberLayout) (d : Decimal) : Text :=
  let all := Text.ofNat d.digits
  let exponent := d.scale + all.length - 1
  let digits := withoutTrailingZeros all
  if l.least ≤ exponent ∧ exponent < l.most then positional digits (exponent + 1)
  else scientific l digits exponent

end NumberLayout

namespace Floating

/-- The shown form of a value: the shortest decimal that reads back as it. -/
def text (f : FloatFormat) (l : NumberLayout) : Floating → Text
  | .nan => ['n', 'a', 'n']
  | .number negative magnitude =>
    (if negative then ['-'] else []) ++
      if magnitude = 0 then ['0', '.', '0']
      else if magnitude = f.infinity then ['i', 'n', 'f']
      else l.decimal (Decimal.shortest f magnitude)

end Floating
end FileMagic
