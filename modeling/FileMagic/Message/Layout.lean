import FileMagic.Message.Template
import FileMagic.Text.Number
import FileMagic.Value

/-! How a conversion lays out its value. Texts are cut to the precision and padded to the
width; integers get a sign, a mark, at least as many digits as the precision says, and
padding with blanks or zeros. Widths and precisions are ASCII numbers within bounds. -/

namespace FileMagic.Conversion

/-- The bounds of widths and precisions. -/
def widthLimit : Nat := 2 ^ 63 - 1
def precisionLimit : Nat := 2 ^ 31 - 1

/-- Integers leave room for a sign and a mark. -/
def digitsLimit : Nat := 2 ^ 31 - 4

/-- The number that ASCII digits write, and the digits of other scripts left after them. -/
def readNumber (digits : Text) : Nat × Text :=
  (digits.takeWhile Char.isDigit |>.foldl (fun n c => n * 10 + (c.toNat - 48)) 0,
    digits.dropWhile Char.isDigit)

structure Layout where
  left : Bool
  plus : Bool
  blank : Bool
  mark : Bool
  zeros : Bool
  width : Nat
  precision : Option Nat
deriving DecidableEq, Repr

/-- The layout that a conversion asks for. Positions in a faulty one are counted from its per
cent sign. -/
def layout (c : Conversion) : Except ProbeFault Layout := do
  let (width, foreign) := readNumber c.width
  if widthLimit < width then throw .widthTooBig
  let start := 1 + c.flags.length + (c.width.length - foreign.length)
  if let d :: _ := foreign then throw (.conversion d start)
  let precision ← match c.precision with
    | none => pure none
    | some digits => do
      let (precision, foreign) := readNumber digits
      if precisionLimit < precision then throw .precisionTooBig
      if let d :: _ := foreign then
        throw (.conversion d (start + 1 + (digits.length - foreign.length)))
      pure (some precision)
  pure ⟨c.flags.contains '-', c.flags.contains '+', c.flags.contains ' ',
    c.flags.contains '#', c.flags.contains '0', width, precision⟩

/-- A text in a layout: no flag but the one for the left edge changes it. -/
def layoutText (l : Layout) (t : Text) : Text :=
  let cut := match l.precision with
    | none => t
    | some n => t.take n
  if l.left then Text.padEnd l.width ' ' cut else Text.padStart l.width ' ' cut

/-- An integer in a layout, given the digits of its magnitude and the mark of its base. -/
def layoutInteger (l : Layout) (negative : Bool) (mark digits : Text) : Text :=
  let sign := if negative then ['-'] else if l.plus then ['+'] else if l.blank then [' '] else []
  let head := sign ++ if l.mark then mark else []
  let digits := match l.precision with
    | none => digits
    | some n => Text.padStart n '0' digits
  if l.left then Text.padEnd l.width ' ' (head ++ digits)
  else if l.zeros then head ++ Text.padStart (l.width - head.length) '0' digits
  else Text.padStart l.width ' ' (head ++ digits)

def formatText (c : Conversion) (t : Text) : Except ProbeFault Text :=
  c.layout.map fun l => layoutText l t

/-- The digits of a magnitude and the mark before them. -/
def digitsOf (n : Nat) : ConversionKind → Text × Text
  | .hexadecimal false => (['0', 'x'], Text.hexOfNat n)
  | .hexadecimal true => (['0', 'X'], (Text.hexOfNat n).map Text.upperHexDigit)
  | _ => ([], Text.ofNat n)

def formatInteger (c : Conversion) (n : Int) : Except ProbeFault Text := do
  let l ← c.layout
  if digitsLimit < l.precision.getD 0 then throw .precisionOverflow
  let (mark, digits) := digitsOf n.natAbs c.kind
  pure (layoutInteger l (n < 0) mark digits)

end FileMagic.Conversion
