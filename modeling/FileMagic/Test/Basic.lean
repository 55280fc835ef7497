import FileMagic.ByteOrder
import FileMagic.Offset
import FileMagic.RegexEngine
import FileMagic.Test.Extender
import FileMagic.Text.Upper
import FileMagic.Text.Utf8
import FileMagic.Value

/-! Tests are the compiled form of what a rule line asks: where to read, how to decode what
was read, and what to compare it with. What they expect is brought into the form in which it
is read: integers are wrapped to the width of the test, real numbers rounded to its type, and
identifiers written in capital letters. -/

namespace FileMagic

structure IntegerTest where
  offset : Offset
  width : Width
  signed : Bool
  endianness : Endianness
  operator : Operator
  expected : Option Int

inductive RealType where
  | single
  | double
deriving DecidableEq, Repr

structure RealTest where
  offset : Offset
  type : RealType
  endianness : Endianness
  operator : Operator
  expected : Option Double

/-- What the integer of a date counts. -/
inductive DateScale where
  /-- Seconds from the start of 1970. -/
  | seconds
  /-- As many, in 64 bits. -/
  | longSeconds
  /-- Ticks of 100 ns from the start of 1601. -/
  | fileTime
deriving DecidableEq, Repr

structure DateTest where
  offset : Offset
  scale : DateScale
  isLocal : Bool
  endianness : Endianness
  operator : Operator
  expected : Option Int

structure LiteralTest where
  offset : Offset
  operator : Operator
  literal : Bytes

structure RegexTest where
  offset : Offset
  operator : Operator
  source : Text
  extender : Extender
  /-- Absent when any content is accepted. -/
  pattern : Option Regex

structure GuidTest where
  offset : Offset
  operator : Operator
  literal : Option Text

inductive Test where
  | integer (t : IntegerTest)
  | real (t : RealTest)
  | date (t : DateTest)
  | literal (t : LiteralTest)
  | regex (t : RegexTest)
  | guid (t : GuidTest)
  /-- Matches when no test of the same parent has before. -/
  | fallback (offset : Offset)
  /-- A known keyword that is not evaluated. -/
  | unsupported (keyword : Text) (offset : Offset) (value : Text)
  /-- A test of nothing, which does not say how to decode. -/
  | bare (offset : Offset) (operator : Operator) (expected : Value)

namespace IntegerTest

def make (offset : Offset) (width : Width) (signed : Bool) (endianness : Endianness)
    (operator : Operator) (expected : Option Int) : IntegerTest :=
  ⟨offset, width, signed, endianness, operator, expected.map (width.wrap signed)⟩

/-- A test from a number of octets and the name of a byte order. -/
def ofParts (offset : Offset) (octets : Int) (signed : Bool) (endianness : Text)
    (operator : Operator) (expected : Option Int) : Except Fault IntegerTest :=
  match Width.ofOctets? octets with
  | none => .error (.integerWidth octets)
  | some width =>
    (Endianness.ofName endianness).map fun e => make offset width signed e operator expected

end IntegerTest

namespace RealType

def format : RealType → FloatFormat
  | .single => .single
  | .double => .double

def octets : RealType → Nat
  | .single => 4
  | .double => 8

/-- The kind of test that both types make. -/
def kind : Text := "float".toList

def round (t : RealType) : Value → Except Fault (Option Double)
  | .real d =>
    let rounded := d.convert .double t.format
    if rounded.isInfinite t.format && !d.isInfinite .double then
      .error (.realRange (d.text .double shownNumber) kind)
    else .ok (some (rounded.convert t.format .double))
  | .int n =>
    let d := Floating.ofInt .double n
    let rounded := d.convert .double t.format
    if rounded.isInfinite t.format then .error (.realRange (Text.ofInt n) kind)
    else .ok (some (rounded.convert t.format .double))
  | _ => .ok none

/-- The value of the octets of a word. -/
def decode (t : RealType) (e : Endianness) (b : Bytes) : Double :=
  (Floating.ofBits t.format (e.order.decode b)).convert t.format .double

end RealType

namespace RealTest

def make (offset : Offset) (type : RealType) (endianness : Endianness) (operator : Operator)
    (expected : Value) : Except Fault RealTest :=
  (type.round expected).map fun d => ⟨offset, type, endianness, operator, d⟩

end RealTest

namespace DateScale

def width : DateScale → Width
  | .seconds => .long
  | .longSeconds | .fileTime => .quad

end DateScale

namespace DateTest

def make (offset : Offset) (scale : DateScale) (isLocal : Bool) (endianness : Endianness)
    (operator : Operator) (expected : Option Int) : DateTest :=
  ⟨offset, scale, isLocal, endianness, operator, expected.map (scale.width.wrap false)⟩

end DateTest

namespace LiteralTest

/-- A test that accepts anything has an empty literal. -/
def make (offset : Offset) (operator : Operator) (literal : Bytes) : LiteralTest :=
  ⟨offset, operator, if operator = .any then [] else literal⟩

end LiteralTest

namespace RegexTest

def make [RegexEngine] (offset : Offset) (operator : Operator) (source extender : Text) :
    Except Fault RegexTest := do
  let ext ← Extender.parse extender
  if operator = .any then pure ⟨offset, operator, source, ext, none⟩
  else match RegexEngine.compile? ext.fold source.utf8 with
    | some p => pure ⟨offset, operator, source, ext, some p⟩
    | none => throw .pattern

end RegexTest

namespace GuidTest

def make (offset : Offset) (operator : Operator) (literal : Option Text) : GuidTest :=
  ⟨offset, operator, literal.map Text.upper⟩

end GuidTest

namespace Test

def operator : Test → Operator
  | .integer t => t.operator
  | .real t => t.operator
  | .date t => t.operator
  | .literal t => t.operator
  | .regex t => t.operator
  | .guid t => t.operator
  | .fallback _ | .unsupported .. => .any
  | .bare _ o _ => o

def offset : Test → Offset
  | .integer t => t.offset
  | .real t => t.offset
  | .date t => t.offset
  | .literal t => t.offset
  | .regex t => t.offset
  | .guid t => t.offset
  | .fallback o => o
  | .unsupported _ o _ => o
  | .bare o _ _ => o

/-- What a test compares with. -/
def expected : Test → Value
  | .integer t => .ofInt? t.expected
  | .real t => .ofReal? t.expected
  | .date t => .ofInt? t.expected
  | .literal t => .bytes t.literal
  | .regex t => .text t.source
  | .guid t => .ofText? t.literal
  | .fallback _ => .absent
  | .unsupported _ _ value => .text value
  | .bare _ _ expected => expected

/-- The kinds of tests, as messages name them. -/
def kind : Test → Option Text
  | .integer _ => some "integer".toList
  | .real _ => some RealType.kind
  | .date _ => some "date".toList
  | .literal _ => some "string".toList
  | .regex _ => some "regex".toList
  | .guid _ => some "guid".toList
  | .fallback _ => some "default".toList
  | .unsupported .. => some "unsupported".toList
  | .bare .. => none

def isFallback : Test → Bool
  | .fallback _ => true
  | _ => false

/-- The operators that a test accepts. -/
def operators : Test → List Operator
  | .literal _ | .guid _ => Operator.equalities
  | .regex _ => [.equal, .any]
  | _ => Operator.all

/-- The name of a test in shown rules. -/
def label : Test → Text
  | .integer t => match t.width with
    | .byte => "ByteTester".toList
    | .short => "ShortTester".toList
    | .long => "LongTester".toList
    | .quad => "QuadTester".toList
  | .real t => match t.type with
    | .single => "FloatTester".toList
    | .double => "DoubleTester".toList
  | .date t => match t.scale with
    | .seconds => "DateTester".toList
    | .longSeconds => "QuadDateTester".toList
    | .fileTime => "WindowsDateTester".toList
  | .literal _ => "StringTester".toList
  | .regex _ => "RegexTester".toList
  | .guid _ => "GuidTester".toList
  | .fallback _ => "DefaultTester".toList
  | .unsupported .. => "UnsupportedTester".toList
  | .bare .. => "Tester".toList

def shown (t : Test) : Text :=
  ['<'] ++ t.label ++ ['('] ++
    (match t with
      | .unsupported keyword _ _ => keyword
      | _ => t.offset.shown ++ ", ".toList ++ t.operator.name ++ [' '] ++ t.expected.shown) ++
    ")>".toList

end Test
end FileMagic
