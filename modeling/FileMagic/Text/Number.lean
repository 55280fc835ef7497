import FileMagic.Text.Basic

/-! Integers written in a base: the sign, an optional base mark and the digits without
leading zeros. -/

namespace FileMagic.Text

def ofNat (n : Nat) : Text := Nat.toDigits 10 n

def sign (n : Int) : Text := if n < 0 then ['-'] else []

def ofInt (n : Int) : Text := sign n ++ ofNat n.natAbs

/-- Lower-case hexadecimal digits. -/
def hexOfNat (n : Nat) : Text := Nat.toDigits 16 n

/-- Hexadecimal with the mark after the sign: -0x5. -/
def hexOfInt (n : Int) : Text := sign n ++ ['0', 'x'] ++ hexOfNat n.natAbs

/-- A text made at least `width` characters long by writing `fill` before it. -/
def padStart (width : Nat) (fill : Char) (t : Text) : Text :=
  List.replicate (width - t.length) fill ++ t

def padEnd (width : Nat) (fill : Char) (t : Text) : Text :=
  t ++ List.replicate (width - t.length) fill

def upperHexDigit (c : Char) : Char :=
  if 'a' ≤ c && c ≤ 'f' then Char.ofNat (c.toNat - 32) else c

theorem padStart_of_le {width : Nat} {t : Text} (h : width ≤ t.length) (fill : Char) :
    padStart width fill t = t := by
  simp [padStart, Nat.sub_eq_zero_of_le h]

end FileMagic.Text
