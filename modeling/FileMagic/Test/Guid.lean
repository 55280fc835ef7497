import FileMagic.Text.Number

/-! Globally unique identifiers: sixteen octets in hexadecimal, in groups of 8, 4, 4, 4 and 12
digits, with capital letters. -/

namespace FileMagic.Guid

def size : Nat := 16

def octetText (b : UInt8) : Text :=
  (Text.padStart 2 '0' (Text.hexOfNat b.toNat)).map Text.upperHexDigit

/-- The octets in each group. -/
def groups : List Nat := [4, 2, 2, 2, 6]

def grouped : List Nat → Bytes → List Text
  | [], _ => []
  | n :: rest, b => (b.take n).flatMap octetText :: grouped rest (b.drop n)

def text (b : Bytes) : Text := Text.join ['-'] (grouped groups b)

end FileMagic.Guid
