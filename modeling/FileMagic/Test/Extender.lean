import FileMagic.Numeral

/-! The extender of a regex test: how far to look, and how. Letters and digits come in any
order; the digits, wherever they are, make one count. -/

namespace FileMagic

structure Extender where
  count : Nat
  /-- Letters match in either case. -/
  fold : Bool
  /-- The count is of lines. -/
  lines : Bool
  /-- The message is rendered from the start of the match. -/
  fromStart : Bool
deriving DecidableEq, Repr

namespace Extender

def isFlag (c : Char) : Bool := c = 'c' || c = 'l' || c = 's'

/-- What has been read of an extender: the flags, each of them once, and the digits in their
order. -/
structure Marks where
  flags : List Char
  digits : Text

namespace Marks

def none : Marks := ⟨[], []⟩

/-- One character more, if it is a flag or a digit. -/
def add? (m : Marks) (c : Char) : Option Marks :=
  if isFlag c then some { m with flags := m.flags.insert c }
  else if isDigitLike c then some { m with digits := m.digits ++ [c] }
  else Option.none

/-- The count that the digits make. -/
def count (m : Marks) : Except Fault Nat :=
  match m.digits with
  | [] => .ok 0
  | digits => (Numeral.read 10 digits).map Int.toNat

end Marks

/-- The marks of a text behind those read so far, or its first character that is none. -/
def scan (m : Marks) : Text → Except Char Marks
  | [] => .ok m
  | c :: rest =>
    match m.add? c with
    | some m => scan m rest
    | none => .error c

def parse (t : Text) : Except Fault Extender :=
  match scan .none t with
  | .error c => .error (.extenderFlag c t)
  | .ok m => m.count.map fun n =>
    ⟨n, m.flags.contains 'c', m.flags.contains 'l', m.flags.contains 's'⟩

end Extender
end FileMagic
