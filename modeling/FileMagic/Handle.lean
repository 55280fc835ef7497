import FileMagic.Stream

/-! Handles: streams over objects that have a position. Every read of a stream moves the object
to an absolute offset and reads from there, so that it leaves the object at another position
than it found it, also when it fails half way. -/

namespace FileMagic

/-- A stream and the position at which its object stands. -/
structure Handle extends Stream where
  position : Nat
deriving DecidableEq, Repr

namespace Handle

/-- Computations that move a handle and may fail. -/
abbrev Moving (α : Type) : Type := EStateM ReadFault Handle α

def seek (offset size : Int) : Moving Unit := fun h =>
  match h.toStream.seek offset size with
  | .error e => .error e h
  | .ok () => .ok () { h with position := offset.toNat }

/-- At most `size` octets from the position on, which is then behind them. -/
def read (size : Int) : Moving Bytes := fun h =>
  if h.backing = .silent then .ok [] h
  else if Stream.sizeLimit h.backing ≤ size then .error .overflow h
  else
    let part := (h.content.drop h.position).take size.toNat
    .ok part { h with position := h.position + part.length }

/-- At most `size` octets from `offset` on; nothing is touched where there is nothing to
read. -/
def readAt (offset : Option Int) (size : Int) : Moving Bytes :=
  match offset with
  | none => pure []
  | some o =>
    if o < 0 ∨ size ≤ 0 then pure []
    else do
      seek o size
      read size

def chunksUntil (terminator : Bytes) : Nat → Option Int → Moving Bytes
  | 0, _ => pure []
  | fuel + 1, offset => do
    let chunk ← readAt offset Stream.chunkSize
    match Stream.find? terminator chunk with
    | some n => pure (chunk.take n)
    | none =>
      if chunk.length ≠ Stream.chunkSize then pure chunk
      else
        let rest ← chunksUntil terminator fuel (Stream.advance offset chunk.length)
        pure (chunk ++ rest)

def readUntil (offset : Option Int) (terminator : Bytes) : Moving Bytes := do
  chunksUntil terminator (← get).chunkLimit offset

def chunksToEnd : Nat → Option Int → Moving Bytes
  | 0, _ => pure []
  | fuel + 1, offset => do
    let chunk ← readAt offset Stream.chunkSize
    if chunk.length ≠ Stream.chunkSize then pure chunk
    else
      let rest ← chunksToEnd fuel (Stream.advance offset chunk.length)
      pure (chunk ++ rest)

def readAll (offset : Option Int) : Moving Bytes := do
  chunksToEnd (← get).chunkLimit offset

def linesFrom : Nat → Option Int → Moving Bytes
  | 0, _ => pure []
  | count + 1, offset => do
    let line ← readUntil offset [10]
    let newline ← readAt (Stream.advance offset line.length) 1
    let whole := line ++ newline
    if newline.isEmpty then pure whole
    else
      let rest ← linesFrom count (Stream.advance offset whole.length)
      pure (whole ++ rest)

def readLines (offset : Option Int) (count : Int) : Moving Bytes := do
  linesFrom (min count.toNat ((← get).content.length + 1)) offset

end Handle

/-- A read that a stream can be asked for. -/
inductive Read where
  /-- At most so many octets from an offset on. -/
  | part (offset : Option Int) (size : Int)
  /-- All up to a terminator. -/
  | upTo (offset : Option Int) (terminator : Bytes)
  | lines (offset : Int) (count : Int)
  | rest (offset : Option Int)
deriving DecidableEq, Repr

namespace Read

def run : Read → Handle.Moving Bytes
  | .part offset size => Handle.readAt offset size
  | .upTo offset terminator => Handle.readUntil offset terminator
  | .lines offset count => Handle.readLines (some offset) count
  | .rest offset => Handle.readAll offset

/-- What the read gives of a stream without a position. -/
def ofStream (s : Stream) : Read → Except ReadFault Bytes
  | .part offset size => s.readAt offset size
  | .upTo offset terminator => s.readUntil offset terminator
  | .lines offset count => s.readLines (some offset) count
  | .rest offset => s.readAll offset

end Read
end FileMagic
