import FileMagic.Floating.Numeral
import FileMagic.RuleText.Offset
import FileMagic.RuleText.ReadType
import FileMagic.Rule
import FileMagic.Text.Lines

/-! A rule line has an offset, a type and a test value between blanks, and a message after
them. The marks before the offset give the depth of the rule. -/

namespace FileMagic.RuleText

/-- The test value that accepts anything. -/
def anyValue : Text := ['x']

/-- The relation that a test value starts with. -/
def splitRelation : Text → Operator × Text
  | '>' :: '=' :: rest => (.atLeast, rest)
  | '<' :: '=' :: rest => (.atMost, rest)
  | '>' :: rest => (.greater, rest)
  | '<' :: rest => (.less, rest)
  | '=' :: rest => (.equal, rest)
  | '!' :: rest => (.notEqual, rest)
  | t => (.equal, t)

/-- The operator of a test value and what it compares with. -/
def readTestValue (text : Text) : Except Fault (Operator × Option Text) :=
  if text = anyValue then .ok (.any, none)
  else
    let (operator, value) := splitRelation text
    if value.isEmpty then .error .emptyValue else .ok (operator, some value)

/-- An integer that fits in so many bits, signed or not. -/
def readInteger (bits : Nat) (text : Text) : Except Fault Int := do
  let n ← Numeral.parse text
  if -(2 ^ (bits - 1)) ≤ n ∧ n < 2 ^ bits then pure n else throw (.integerRange text bits)

def readIntegerValue (bits : Nat) : Option Text → Except Fault (Option Int)
  | none => .ok none
  | some t => (readInteger bits t).map some

def readRealValue : Option Text → Except Fault Value
  | none => .ok .absent
  | some t => (Floating.parse t).map .real

variable [RegexEngine]

/-- The test of a supported type, given its operator and value. -/
def buildTest (offset : Offset) (t : TypeText) (operator : Operator) (value : Option Text) :
    Except Fault Test :=
  match t.type with
  | .integer width => do
    let n ← readIntegerValue width.bits value
    pure (.integer (.make offset width t.signed t.endianness operator n))
  | .real type => do
    let d ← readRealValue value
    .real <$> RealTest.make offset type t.endianness operator d
  | .date scale isLocal => do
    let n ← readIntegerValue scale.width.bits value
    pure (.date (.make offset scale isLocal t.endianness operator n))
  | .string => pure (.literal (.make offset operator (value.getD []).utf8))
  | .regex => .regex <$> RegexTest.make offset operator (value.getD []) t.extender
  | .guid => pure (.guid (.make offset operator (some (value.getD []))))
  | .default => pure (.fallback offset)
  | .unsupported keyword => pure (.unsupported keyword offset (value.getD []))

def clearKeyword : Text := "clear".toList

def readTest (offset : Offset) (typeText valueText : Text) : Except Fault Test := do
  let t ← readType typeText
  match t.type with
  | .unsupported keyword =>
    if keyword = clearKeyword ∧ valueText ≠ anyValue then throw (.clearValue valueText)
    else pure (.unsupported keyword offset valueText)
  | .default =>
    if valueText ≠ anyValue then throw (.defaultValue valueText) else pure (.fallback offset)
  | _ => do
    let (operator, value) ← readTestValue valueText
    buildTest offset t operator value

def depthMark : Char := '>'

def readLine (line : Text) : Except Fault Entry :=
  match line.words with
  | offsetText :: typeText :: valueText :: message => do
    let offset ← readOffset (offsetText.dropWhile (· = depthMark))
    let test ← readTest offset typeText valueText
    pure ⟨(offsetText.takeWhile (· = depthMark)).length, test, Text.join [' '] message⟩
  | _ => .error .missingFields

end FileMagic.RuleText
