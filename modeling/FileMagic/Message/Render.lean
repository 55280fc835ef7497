import FileMagic.ByteOrder
import FileMagic.Message.Layout
import FileMagic.Stream
import FileMagic.Text.Utf8

/-! Rendering fills a template from a stream. Each conversion reads where the one before it
stopped; what cannot be read whole leaves its conversion empty, and so does having no position
to read from. -/

namespace FileMagic.Template

/-- The integers that conversions read are 32-bit and little endian. -/
def integerWidth : Width := .long

/-- The integer in the octets that a conversion has read. The sign of a signed one is bit 31. -/
def integerOf (signed : Bool) (raw : Bytes) : Int :=
  let value := ByteOrder.little.decode raw
  if signed && value.testBit 31 then value - 2 ^ 32 else value

/-- The text at a position, up to a zero octet or the end, and the position after it and the
zero octet. -/
def readText (s : Stream) (position : Int) : Except ReadFault (Text × Int) := do
  let raw ← s.readUntil (some position) [0]
  let after := position + raw.length
  let terminator ← s.readAt (some after) 1
  pure (Utf8.decode raw, if terminator.isEmpty then after else after + 1)

/-- The integer at a position, if there is a whole one, and the position after what could be
read. -/
def readInteger (s : Stream) (position : Int) (signed : Bool) :
    Except ReadFault (Option Int × Int) := do
  let raw ← s.readAt (some position) integerWidth.octets
  let after := position + raw.length
  if raw.length ≠ integerWidth.octets then pure (none, after)
  else pure (some (integerOf signed raw), after)

/-- The output of a conversion of a text. `shown` stands in for what would be read. -/
def renderText (s : Stream) (shown : Option Text) (position : Option Int) (c : Conversion) :
    Except ProbeFault (Text × Option Int) :=
  match shown, position with
  | some t, _ => do pure (← c.formatText t, position)
  | none, none => do pure (← c.formatText [], none)
  | none, some p => do
    let (t, after) ← ProbeFault.ofRead (readText s p)
    pure (← c.formatText t, some after)

/-- The output of a conversion of an integer. -/
def renderInteger (s : Stream) (position : Option Int) (c : Conversion) :
    Except ProbeFault (Text × Option Int) :=
  match position with
  | none => .ok ([], none)
  | some p => do
    let (value, after) ← ProbeFault.ofRead (readInteger s p (c.kind = .decimal true))
    match value with
    | none => pure ([], some after)
    | some n => pure (← c.formatInteger n, some after)

/-- The output of one conversion, and the position after it. -/
def renderConversion (s : Stream) (shown : Option Text) (position : Option Int)
    (c : Conversion) : Except ProbeFault (Text × Option Int) :=
  match c.kind with
  | .percent => .ok (['%'], position)
  | .text => renderText s shown position c
  | _ => renderInteger s position c

def renderPieces (s : Stream) (shown : Option Text) :
    Option Int → List Piece → Except ProbeFault Text
  | _, [] => .ok []
  | position, .char c :: rest => do
    let t ← renderPieces s shown position rest
    pure (c :: t)
  | position, .conversion c :: rest => do
    let (out, after) ← renderConversion s shown position c
    let t ← renderPieces s shown after rest
    pure (out ++ t)

/-- The message that a template gives at a position. -/
def render (s : Stream) (position : Option Int) (template : Text) (shown : Option Text) :
    Except ProbeFault Text :=
  renderPieces s shown position (pieces template)

end FileMagic.Template
