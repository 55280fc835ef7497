import FileMagic.Text.Quoted

/-! Streams: what the engine reads from. Every read is at an absolute offset, and one that
reaches beyond the end gives fewer octets, which is no failure. -/

namespace FileMagic

/-- Why a file of a directory cannot be read. -/
inductive FileFault where
  | missing
  | directory
  | notDirectory
deriving DecidableEq, Repr

def FileFault.message (path : Text) : FileFault → Text
  | .missing => "[Errno 2] No such file or directory: ".toList ++ path.quoted
  | .directory => "[Errno 21] Is a directory: ".toList ++ path.quoted
  | .notDirectory => "[Errno 20] Not a directory: ".toList ++ path.quoted

/-- A file: its octets, and the furthest offset from which its file system lets one read. All of the
octets can be read. -/
structure File where
  content : Bytes
  reach : Nat
  length_le : content.length ≤ reach

/-- Octets as a file, in a file system with a limit. -/
def File.ofBytes (limit : Nat) (content : Bytes) : File :=
  ⟨content, max limit content.length, Nat.le_max_right ..⟩

/-- Something that a stream can be asked to wrap; `kind` names what it is. -/
inductive Source where
  /-- Content in memory, of which the stream makes a copy. -/
  | memory (kind : Text) (content : Bytes)
  /-- A readable object that belongs to the caller. -/
  | handle (kind : Text) (content : Bytes)
  /-- A readable object that never gives an octet. -/
  | silent (kind : Text)
  /-- A path, and the file found there. -/
  | path (kind : Text) (name : Text) (file : Except FileFault File)
  /-- An object that cannot be read. -/
  | unreadable (kind : Text)

inductive Backing where
  | memory
  | handle
  /-- A file that can be read from offsets up to `reach`. -/
  | file (reach : Nat)
  | silent
deriving DecidableEq, Repr

def Backing.isFile : Backing → Bool
  | .file _ => true
  | _ => false

structure Stream where
  kind : Text
  backing : Backing
  content : Bytes
  isOpen : Bool
deriving DecidableEq, Repr

inductive OpenFault where
  | file (path : Text) (fault : FileFault)
  | wrongKind (kind : Text)
deriving DecidableEq, Repr

def OpenFault.message : OpenFault → Text
  | .file path fault => "cannot open '".toList ++ path ++ "': ".toList ++ fault.message path
  | .wrongKind kind =>
    ['\''] ++ kind ++ "' is the wrong kind of object to use as a stream".toList

inductive ReadFault where
  /-- An offset or a size beyond what an object can be asked for. -/
  | overflow
  | unreadable (size offset : Int) (why : Text)
deriving DecidableEq, Repr

def ReadFault.message : ReadFault → Text
  | .overflow => "offset or size out of range".toList
  | .unreadable size offset why =>
    "cannot read ".toList ++ Text.ofInt size ++ " bytes at offset ".toList ++
      Text.hexOfInt offset ++ ": ".toList ++ why

namespace Stream

def ofBytes (content : Bytes) : Stream := ⟨"bytes".toList, .memory, content, true⟩

def ofSource : Source → Except OpenFault Stream
  | .memory kind content => .ok ⟨kind, .memory, content, true⟩
  | .handle kind content => .ok ⟨kind, .handle, content, true⟩
  | .silent kind => .ok ⟨kind, .silent, [], true⟩
  | .path kind _ (.ok file) => .ok ⟨kind, .file file.reach, file.content, true⟩
  | .path _ name (.error fault) => .error (.file name fault)
  | .unreadable kind => .error (.wrongKind kind)

def shown (s : Stream) : Text := "<Stream(".toList ++ s.kind ++ ")>".toList

/-- Offsets and sizes are below this bound. -/
def positionLimit : Int := 2 ^ 63

/-- Sizes are below this bound. A file makes room for all that it is asked for, with a header of 33
octets; an object in memory only for what is there. There is memory for all of it. -/
def sizeLimit : Backing → Int
  | .file _ => positionLimit - 33
  | _ => positionLimit

/-- Moving to an offset: a file checks that it is open before it looks at the offset, and
reports an offset that it cannot represent or that its file system refuses; an object in memory
takes them in the other order. -/
def seek (s : Stream) (offset size : Int) : Except ReadFault Unit :=
  match s.backing with
  | .silent => .ok ()
  | .file reach =>
    if !s.isOpen then .error (.unreadable size offset "seek of closed file".toList)
    else if positionLimit ≤ offset then
      .error (.unreadable size offset "cannot fit 'int' into an offset-sized integer".toList)
    else if reach < offset then
      .error (.unreadable size offset "[Errno 22] Invalid argument".toList)
    else .ok ()
  | .memory | .handle =>
    if positionLimit ≤ offset then .error .overflow
    else if !s.isOpen then
      .error (.unreadable size offset "I/O operation on closed file.".toList)
    else .ok ()

/-- At most `size` octets from `offset` on. An absent or negative offset is outside every
stream and reaches no object. -/
def readAt (s : Stream) (offset : Option Int) (size : Int) : Except ReadFault Bytes :=
  match offset with
  | none => .ok []
  | some o =>
    if o < 0 ∨ size ≤ 0 then .ok []
    else
      match s.seek o size with
      | .error e => .error e
      | .ok _ =>
        if s.backing = .silent then .ok []
        else if sizeLimit s.backing ≤ size then .error .overflow
        else .ok ((s.content.drop o.toNat).take size.toNat)

/-- Longer reads are made of chunks of this size. -/
def chunkSize : Nat := 256

/-- A chunk that is not full is the last one. -/
def chunkLimit (s : Stream) : Nat := s.content.length / chunkSize + 1

def advance (offset : Option Int) (n : Nat) : Option Int := offset.map (· + n)

/-- The position of the first `part` in the octets. -/
def find? (part : Bytes) : Bytes → Option Nat
  | [] => if part.isEmpty then some 0 else none
  | b :: rest =>
    if part.isPrefixOf (b :: rest) then some 0 else (find? part rest).map (· + 1)

def chunksUntil (s : Stream) (terminator : Bytes) :
    Nat → Option Int → Except ReadFault Bytes
  | 0, _ => .ok []
  | fuel + 1, offset => do
    let chunk ← s.readAt offset chunkSize
    match find? terminator chunk with
    | some n => pure (chunk.take n)
    | none =>
      if chunk.length ≠ chunkSize then pure chunk
      else
        let rest ← chunksUntil s terminator fuel (advance offset chunk.length)
        pure (chunk ++ rest)

/-- The octets from `offset` up to the terminator, or to the end. The terminator is looked
for in each chunk by itself. -/
def readUntil (s : Stream) (offset : Option Int) (terminator : Bytes) :
    Except ReadFault Bytes :=
  s.chunksUntil terminator s.chunkLimit offset

def chunksToEnd (s : Stream) : Nat → Option Int → Except ReadFault Bytes
  | 0, _ => .ok []
  | fuel + 1, offset => do
    let chunk ← s.readAt offset chunkSize
    if chunk.length ≠ chunkSize then pure chunk
    else
      let rest ← chunksToEnd s fuel (advance offset chunk.length)
      pure (chunk ++ rest)

def readAll (s : Stream) (offset : Option Int) : Except ReadFault Bytes :=
  s.chunksToEnd s.chunkLimit offset

def linesFrom (s : Stream) : Nat → Option Int → Except ReadFault Bytes
  | 0, _ => .ok []
  | count + 1, offset => do
    let line ← s.readUntil offset [10]
    let newline ← s.readAt (advance offset line.length) 1
    let whole := line ++ newline
    if newline.isEmpty then pure whole
    else
      let rest ← linesFrom s count (advance offset whole.length)
      pure (whole ++ rest)

/-- At most `count` lines from `offset` on, with the line feeds that end them. There are not
more lines than octets. -/
def readLines (s : Stream) (offset : Option Int) (count : Int) : Except ReadFault Bytes :=
  s.linesFrom (min count.toNat (s.content.length + 1)) offset

end Stream
end FileMagic
