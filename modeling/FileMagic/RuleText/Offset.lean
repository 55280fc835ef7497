import FileMagic.Numeral
import FileMagic.Offset

/-! Offsets as rules write them: an integer, or a pointer in parentheses with an optional type
after a point or a comma (for a signed one) and an optional displacement of its target. -/

namespace FileMagic.RuleText

/-- The letters for the types of pointers. -/
def pointerType? : Char → Option (Width × Endianness)
  | 'b' | 'c' | 'B' | 'C' => some (.byte, .little)
  | 's' | 'h' => some (.short, .little)
  | 'S' | 'H' => some (.short, .big)
  | 'l' => some (.long, .little)
  | 'L' => some (.long, .big)
  | 'm' => some (.long, .middle)
  | 'q' => some (.quad, .little)
  | 'Q' => some (.quad, .big)
  | _ => none

/-- The parts of a pointer. -/
structure PointerText where
  base : Text
  width : Width
  endianness : Endianness
  signed : Bool
  /-- Whether the displacement is subtracted, and its numeral. -/
  delta : Option (Bool × Text)

def endsBase (c : Char) : Bool := c = '.' || c = ',' || c = '+' || c = '-' || c = ')'

/-- The type of a pointer, which is a little-endian long without one, and what follows. -/
def splitType : Text → Option ((Width × Endianness) × Bool × Text)
  | '.' :: letter :: rest => (pointerType? letter).map (·, false, rest)
  | ',' :: letter :: rest => (pointerType? letter).map (·, true, rest)
  | t => some ((.long, .little), false, t)

/-- The displacement, if there is one, and what follows. -/
def splitDelta (t : Text) : Option (Option (Bool × Text) × Text) :=
  let digits (subtracted : Bool) (rest : Text) :=
    let delta := rest.takeWhile (· ≠ ')')
    if delta.isEmpty then none
    else some (some (subtracted, delta), rest.dropWhile (· ≠ ')'))
  match t with
  | '+' :: rest => digits false rest
  | '-' :: rest => digits true rest
  | t => some (none, t)

/-- The parts of a pointer whose opening parenthesis is left out. A line feed may follow the
closing one. -/
def pointerText? (t : Text) : Option PointerText := do
  let base := t.takeWhile fun c => !endsBase c
  let ((width, endianness), signed, rest) ← splitType (t.dropWhile fun c => !endsBase c)
  let (delta, rest) ← splitDelta rest
  if base.isEmpty || !(rest = [')'] || rest = [')', '\n']) then none
  else some ⟨base, width, endianness, signed, delta⟩

def PointerText.read (p : PointerText) : Except Fault Offset := do
  let base ← Numeral.parse p.base
  let pointer := Offset.indirect base p.width p.endianness p.signed 0
  match p.delta with
  | none => pure pointer
  | some (subtracted, digits) =>
    let delta ← Numeral.parse digits
    pure (.chain pointer [.fixed (if subtracted then -delta else delta)])

def readOffset (text : Text) : Except Fault Offset :=
  match text with
  | '&' :: _ => .error (.relativeOffset text)
  | '(' :: rest =>
    match pointerText? rest with
    | some p => p.read
    | none => .error (.indirectOffset text)
  | _ => (Numeral.parse text).map .fixed

end FileMagic.RuleText
