import FileMagic.ByteOrder
import FileMagic.Stream

/-! Offsets are found with respect to a reference position, which is zero for a rule. A chain
hands the result of each stage to the next one. -/

namespace FileMagic

inductive Offset where
  /-- A displacement from the reference. -/
  | fixed (value : Int)
  /-- A pointer: the integer at the displacement from the reference, moved by `delta`. -/
  | indirect (value : Int) (width : Width) (endianness : Endianness) (signed : Bool)
      (delta : Int)
  | chain (first : Offset) (rest : List Offset)

namespace Offset

/-- A pointer of `octets` octets, if integers can be so wide. -/
def pointer (value octets : Int) (endianness : Endianness) (signed : Bool) (delta : Int) :
    Except Fault Offset :=
  match Width.ofOctets? octets with
  | some width => .ok (.indirect value width endianness signed delta)
  | none => .error (.pointerWidth octets)

def chained : List Offset → Except Fault Offset
  | [] => .error .emptyChain
  | first :: rest => .ok (.chain first rest)

mutual

def eq : Offset → Offset → Bool
  | .fixed a, .fixed b => a = b
  | .indirect v w e s d, .indirect v' w' e' s' d' =>
    v = v' && w = w' && e = e' && s = s' && d = d'
  | .chain a as, .chain b bs => eq a b && eqAll as bs
  | _, _ => false

def eqAll : List Offset → List Offset → Bool
  | [], [] => true
  | a :: as, b :: bs => eq a b && eqAll as bs
  | _, _ => false

end

instance : BEq Offset := ⟨eq⟩

mutual

def shown : Offset → Text
  | .fixed value => "<Offset(".toList ++ Text.hexOfInt value ++ ")>".toList
  | .indirect value width endianness signed delta =>
    "<IndirectOffset(".toList ++ Text.hexOfInt value ++ ", size=".toList ++
      Text.ofNat width.octets ++ ", ".toList ++ endianness.name ++
      (if signed then ", signed".toList else []) ++ ", delta=".toList ++
      Text.hexOfInt delta ++ ")>".toList
  | .chain first rest =>
    "<ChainedOffset(".toList ++ shown first ++ shownRest rest ++ ")>".toList

def shownRest : List Offset → Text
  | [] => []
  | o :: rest => ", ".toList ++ shown o ++ shownRest rest

end

/-- The integer that the octets of a pointer hold. When signed, its highest bit counts as
negative. -/
def target (width : Width) (endianness : Endianness) (signed : Bool) (raw : Bytes) : Int :=
  let value := endianness.order.decode raw
  if signed && value.testBit (width.octets * 8 - 1) then value - 2 ^ (width.octets * 8) else value

mutual

/-- The position that an offset stands for, or none when a pointer cannot be read whole. -/
def resolve (s : Stream) (reference : Int) : Offset → Except ReadFault (Option Int)
  | .fixed value => .ok (some (reference + value))
  | .indirect value width endianness signed delta => do
    let raw ← s.readAt (some (reference + value)) width.octets
    if raw.length ≠ width.octets then pure none
    else pure (some (target width endianness signed raw + delta))
  | .chain first rest => do
    match ← resolve s reference first with
    | none => pure none
    | some position => resolveStages s position rest

def resolveStages (s : Stream) (position : Int) : List Offset → Except ReadFault (Option Int)
  | [] => .ok (some position)
  | o :: rest => do
    match ← resolve s position o with
    | none => pure none
    | some position => resolveStages s position rest

end

end Offset
end FileMagic
