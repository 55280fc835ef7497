import FileMagic.Date
import FileMagic.Message.Render
import FileMagic.Test.Basic
import FileMagic.Test.Guid

/-! Evaluating a test: its operator is checked, its offset resolved, and as many octets read as
its type needs. A test that cannot read them all does not match; one that matches renders its
message from where it stopped reading. -/

namespace FileMagic

/-- The message of a test that matches. -/
abbrev Outcome := Option Text

/-- How a test matches: the position from which its message reads, if there is one, and the
text that stands in for the texts read from the stream. -/
structure Hit where
  position : Option Int
  shown : Option Text
deriving DecidableEq, Repr

namespace Test

def checkOperator (t : Test) : Except ProbeFault Unit :=
  if t.operators.contains t.operator then .ok () else .error (.operator t.operator t.kind)

/-- The position of an offset and the octets there, if there are as many as asked for. -/
def readExactly (s : Stream) (offset : Offset) (size : Nat) :
    Except ReadFault (Option (Int × Bytes)) := do
  match ← offset.resolve s 0 with
  | none => pure none
  | some position =>
    let raw ← s.readAt (some position) size
    pure (if raw.length ≠ size then none else some (position, raw))

/-- A test of a value of `size` octets. -/
def compareDecoded (s : Stream) (offset : Offset) (size : Nat) (decode : Bytes → Value)
    (expected : Value) (operator : Operator) (shown : Value → Option Text) :
    Except ProbeFault (Option Hit) := do
  match ← ProbeFault.ofRead (readExactly s offset size) with
  | none => pure none
  | some (position, raw) =>
    let value := decode raw
    if ← value.compare expected operator then
      pure (some ⟨some (position + size), shown value⟩)
    else pure none

end Test

namespace DateScale

/-- The seconds from the start of 1970 that a count stands for. -/
def instant : DateScale → Int → Int
  | .fileTime, n => Instant.ofFileTime n
  | _, n => n

end DateScale

namespace RegexTest

/-- The octets to look in: all from the position on, so many lines, or so many octets if they
are all there. -/
def window (t : RegexTest) (s : Stream) (position : Int) : Except ReadFault Bytes :=
  if t.extender.count = 0 then s.readAll (some position)
  else if t.extender.lines then s.readLines (some position) t.extender.count
  else do
    let raw ← s.readAt (some position) t.extender.count
    pure (if raw.length ≠ t.extender.count then [] else raw)

/-- Whether and where the test matches, given a search for the pattern. -/
def hit (t : RegexTest) (search : Bytes → Option Regex.Span) (s : Stream) :
    Except ProbeFault (Option Hit) := do
  match ← ProbeFault.ofRead (t.offset.resolve s 0) with
  | none => pure none
  | some position =>
    if t.operator = .any then pure (some ⟨some position, none⟩)
    else
      let window ← ProbeFault.ofRead (t.window s position)
      if window.isEmpty then pure none
      else match search window with
        | none => pure none
        | some span =>
          let found := if t.extender.fromStart then span.start else span.stop
          pure (some ⟨some (position + found), none⟩)

/-- The search for the pattern of the test. -/
def find (t : RegexTest) (window : Bytes) : Option Regex.Span :=
  t.pattern.bind (·.search window)

end RegexTest

namespace Test

/-- Whether and where a test matches whose operator is known to be accepted. -/
def hit (s : Stream) : Test → Except ProbeFault (Option Hit)
  | .integer t =>
    compareDecoded s t.offset t.width.octets
      (fun b => .int (t.width.decode t.signed t.endianness b)) (.ofInt? t.expected) t.operator
      fun _ => none
  | .real t =>
    compareDecoded s t.offset t.type.octets (fun b => .real (t.type.decode t.endianness b))
      (.ofReal? t.expected) t.operator fun _ => none
  | .date t =>
    compareDecoded s t.offset t.scale.width.octets
      (fun b => .int (t.scale.width.decode false t.endianness b))
      (.ofInt? t.expected) t.operator fun
        -- what a date counts is never too long to be written
        | .int n => (Instant.text (t.scale.instant n) t.isLocal).toOption
        | _ => none
  | .literal t =>
    compareDecoded s t.offset t.literal.length .bytes (.bytes t.literal) t.operator fun _ => none
  | .guid t =>
    compareDecoded s t.offset Guid.size (fun b => .text (Guid.text b)) (.ofText? t.literal)
      t.operator fun _ => none
  | .regex t => t.hit t.find s
  | .fallback offset => do
    let position ← ProbeFault.ofRead (offset.resolve s 0)
    pure (some ⟨position, none⟩)
  | .unsupported .. => .ok none
  | .bare offset _ _ => do
    match ← ProbeFault.ofRead (readExactly s offset 0) with
    | none => pure none
    | some _ => throw (.undecoded (label (.bare offset .any .absent)))

def evaluate (s : Stream) (template : Text) (t : Test) : Except ProbeFault Outcome := do
  t.checkOperator
  match ← t.hit s with
  | none => pure none
  | some hit => some <$> Template.render s hit.position template hit.shown

end Test
end FileMagic
