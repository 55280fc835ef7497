import FileMagic.Database
import FileMagic.Handle

/-! Sessions: what can happen to a stream from the moment that it is made. A stream owns the
object behind it only if it has opened it itself; then closing the stream, or leaving the context
that it was made for, closes the object and ends the ownership. Other objects are closed by their
owners alone. -/

namespace FileMagic

/-- A stream and whether the object behind it is to be closed with it. -/
structure Session where
  handle : Handle
  owned : Bool
deriving DecidableEq, Repr

/-- What can be done with a stream, or with the object behind it. -/
inductive Step where
  | read (r : Read)
  | close
  /-- The end of the context of the stream. -/
  | leave
  /-- The caller closes the object that was wrapped. -/
  | closeHandle
  /-- Wrapping the stream, which gives the stream itself. -/
  | wrap
  /-- Describing the content, by rules whose last read leaves the object at `position`. -/
  | probe (rules : Database) (position : Nat)
  /-- Wrapping the object once more, for a step of that second stream. -/
  | again (e : Step)

/-- What a step tells. -/
inductive Answer where
  | octets (b : Except ReadFault Bytes)
  | description (t : Except ProbeFault Text)
  | done

namespace Session

/-- A stream over something that stands at `position` if it can. -/
def ofSource (position : Nat) (source : Source) : Except OpenFault Session :=
  (Stream.ofSource source).map fun s => ⟨⟨s, position⟩, s.backing.isFile⟩

def isOpen (s : Session) : Bool := s.handle.isOpen

def withHandle (s : Session) (h : Handle) : Session := { s with handle := h }

/-- A second stream over the object. It has not opened it. -/
def around (s : Session) : Session := { s with owned := false }

def read (s : Session) (r : Read) : Except ReadFault Bytes × Session :=
  match r.run s.handle with
  | .ok b h => (.ok b, s.withHandle h)
  | .error e h => (.error e, s.withHandle h)

/-- The object is closed if it is owned, and is not owned any more. -/
def close (s : Session) : Session :=
  if s.owned then { s with handle.isOpen := false, owned := false } else s

/-- The object is closed by the caller, if it is the caller's. -/
def closeHandle (s : Session) : Session :=
  if s.handle.backing = .handle then { s with handle.isOpen := false } else s

/-- Describing moves the object and does not close it. -/
def probe (s : Session) (rules : Database) (position : Nat) : Except ProbeFault Text × Session :=
  let moved := { s with handle.position := position }
  (rules.probe s.handle.toStream, moved)

def step (s : Session) : Step → Answer × Session
  | .read r =>
    let (b, s) := s.read r
    (.octets b, s)
  | .close | .leave => (.done, s.close)
  | .closeHandle => (.done, s.closeHandle)
  | .wrap => (.done, s)
  | .probe rules position =>
    let (t, s) := s.probe rules position
    (.description t, s)
  | .again e =>
    let (a, second) := s.around.step e
    (a, s.withHandle second.handle)

/-- The stream after some steps. -/
def after (s : Session) (steps : List Step) : Session :=
  steps.foldl (fun now e => (now.step e).2) s

end Session
end FileMagic
