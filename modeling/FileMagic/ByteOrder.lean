import FileMagic.Fault

/-! Byte orders: how a natural number is laid out in octets. Little and big endian put the
least and the most significant octet first; middle endian writes 16-bit words most significant
first, each of them in little endian. -/

namespace FileMagic

inductive ByteOrder where
  | little
  | big
  | middle
deriving DecidableEq, Repr

namespace ByteOrder

def decodeLittle (b : Bytes) : Nat := b.foldr (fun o n => n * 256 + o.toNat) 0

def decodeBig (b : Bytes) : Nat := b.foldl (fun n o => n * 256 + o.toNat) 0

/-- The value of words, most significant first, appended to the value `high` read before. -/
def decodeWords (high : Nat) : Bytes → Nat
  | a :: b :: rest => decodeWords (high * 65536 + decodeLittle [a, b]) rest
  | rest => high * 256 ^ rest.length + decodeLittle rest

def decode : ByteOrder → Bytes → Nat
  | .little, b => decodeLittle b
  | .big, b => decodeBig b
  | .middle, b => decodeWords 0 b

def encodeLittle : Nat → Nat → Bytes
  | 0, _ => []
  | size + 1, n => UInt8.ofNat (n % 256) :: encodeLittle size (n / 256)

def encodeBig (size n : Nat) : Bytes :=
  (List.range size).map fun i => UInt8.ofNat (n / 256 ^ (size - 1 - i) % 256)

def encodeWords (words n : Nat) : Bytes :=
  (List.range words).flatMap fun i => encodeLittle 2 (n / 65536 ^ (words - 1 - i) % 65536)

/-- The octets of `n`; in middle endian `size` is even. -/
def encode : ByteOrder → Nat → Nat → Bytes
  | .little, size, n => encodeLittle size n
  | .big, size, n => encodeBig size n
  | .middle, size, n => encodeWords (size / 2) n

@[simp] theorem length_encodeLittle (size n : Nat) : (encodeLittle size n).length = size := by
  induction size generalizing n with
  | zero => rfl
  | succ size ih => simp [encodeLittle, ih]

end ByteOrder

/-- How a rule or a test names a byte order. -/
inductive Endianness where
  | little
  | big
  | native
  | middle
deriving DecidableEq, Repr

namespace Endianness

/-- The order of the host, little endian, stands for the native one. -/
def order : Endianness → ByteOrder
  | .little | .native => .little
  | .big => .big
  | .middle => .middle

def name : Endianness → Text
  | .little => "LITTLE_ENDIAN".toList
  | .big => "BIG_ENDIAN".toList
  | .native => "NATIVE".toList
  | .middle => "MIDDLE_ENDIAN".toList

def all : List Endianness := [.little, .big, .native, .middle]

def ofName (t : Text) : Except Fault Endianness :=
  match all.find? (·.name = t) with
  | some e => .ok e
  | none => .error (.endianness t)

end Endianness

/-- Something that reads and writes integers in octets. A coder that has been given no byte
order still checks sizes and ranges. -/
inductive Coder where
  | ordered (order : ByteOrder)
  | unordered
deriving DecidableEq, Repr

inductive CodingFault where
  | size (coder : Text) (octets : Int)
  | misfit (value : Int) (octets : Nat)
  | unordered (coder : Text) (method : Text)
deriving DecidableEq, Repr

def CodingFault.message : CodingFault → Text
  | .size coder n =>
    coder ++ " can't handle integers of ".toList ++ Text.ofInt n ++ " bytes".toList
  | .misfit value n =>
    "value ".toList ++ Text.hexOfInt value ++ " doesn't fit in ".toList ++ Text.ofNat n ++
      " bytes".toList
  | .unordered coder method =>
    "method ".toList ++ coder ++ ['.'] ++ method ++ "() not implemented".toList

namespace Coder

def ofEndianness (e : Endianness) : Coder := .ordered e.order

def name : Coder → Text
  | .ordered .little => "LittleByteOrder".toList
  | .ordered .big => "BigByteOrder".toList
  | .ordered .middle => "MiddleByteOrder".toList
  | .unordered => "ByteOrder".toList

def shown (c : Coder) : Text := ['<'] ++ c.name ++ ['>']

/-- The sizes of integers in octets. -/
def sizes : List Int := [2, 4, 8]

def uint (c : Coder) (b : Bytes) : Except CodingFault Nat :=
  if !sizes.contains b.length then .error (.size c.name b.length)
  else match c with
    | .ordered order => .ok (order.decode b)
    | .unordered => .error (.unordered c.name "_decode".toList)

def putUint (c : Coder) (value size : Int) : Except CodingFault Bytes :=
  if !sizes.contains size then .error (.size c.name size)
  else if value < 0 ∨ 256 ^ size.toNat ≤ value then .error (.misfit value size.toNat)
  else match c with
    | .ordered order => .ok (order.encode size.toNat value.toNat)
    | .unordered => .error (.unordered c.name "_encode".toList)

/-- The integer in the first `size` octets. -/
def uintOf (c : Coder) (size : Nat) (b : Bytes) : Except CodingFault Nat := c.uint (b.take size)

end Coder

/-- The widths of the integers that tests and pointers read. -/
inductive Width where
  | byte
  | short
  | long
  | quad
deriving DecidableEq, Repr

namespace Width

def octets : Width → Nat
  | .byte => 1
  | .short => 2
  | .long => 4
  | .quad => 8

def bits (w : Width) : Nat := 8 * w.octets

theorem two_pow_bits (w : Width) : (2 : Int) ^ w.bits = 2 * 2 ^ (w.bits - 1) := by
  cases w <;> rfl

def all : List Width := [.byte, .short, .long, .quad]

def ofOctets? (n : Int) : Option Width := all.find? fun w => (w.octets : Int) = n

/-- The integer congruent to `n` in the range of the width: from zero up, or from
`-2 ^ (bits - 1)` up when signed. -/
def wrap (w : Width) (signed : Bool) (n : Int) : Int :=
  let low := n % 2 ^ w.bits
  if signed && 2 ^ (w.bits - 1) ≤ low then low - 2 ^ w.bits else low

/-- The integer that octets hold, unsigned or in two's complement. -/
def decode (w : Width) (signed : Bool) (e : Endianness) (b : Bytes) : Int :=
  w.wrap signed (e.order.decode b)

end Width
end FileMagic
