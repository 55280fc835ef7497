import FileMagic.Floating.Shortest
import FileMagic.Operator
import FileMagic.Stream

/-! Values are what tests read and what rules expect. Numbers of both kinds compare exactly;
octets and texts compare in lexicographic order; values of different kinds are never equal
and have no order. -/

namespace FileMagic

inductive Value where
  | absent
  | int (n : Int)
  | real (d : Double)
  | bytes (b : Bytes)
  | text (t : Text)
deriving DecidableEq, Repr

/-- Why an evaluation ends without an answer. -/
inductive ProbeFault where
  /-- An operator that does not exist, or one that the kind of test does not accept. -/
  | operator (o : Operator) (kind : Option Text)
  | read (fault : ReadFault)
  /-- Values of these kinds have no order. -/
  | unordered (symbol left right : Text)
  /-- A test that does not say how to decode what it reads. -/
  | undecoded (test : Text)
  /-- A width or a precision beyond what a conversion can have. -/
  | widthTooBig
  | precisionTooBig
  | precisionOverflow
  /-- A character of a conversion that stands for nothing, and where it is. -/
  | conversion (character : Char) (index : Nat)
deriving DecidableEq, Repr

namespace ProbeFault

/-- A character beyond ASCII is shown as a question mark. -/
def asciiShown (c : Char) : Char := if '\x1f' ≤ c && c ≤ '~' then c else '?'

def message : ProbeFault → Text
  | .operator o kind =>
    "invalid operator ".toList ++ o.shown ++
      (match kind with
        | none => []
        | some k => if k.isEmpty then [] else " for ".toList ++ k ++ " tests".toList)
  | .read fault => fault.message
  | .unordered symbol left right =>
    ['\''] ++ symbol ++ "' not supported between instances of '".toList ++ left ++
      "' and '".toList ++ right ++ ['\'']
  | .undecoded test => "method ".toList ++ test ++ ".decode() not implemented".toList
  | .widthTooBig => "width too big".toList
  | .precisionTooBig => "precision too big".toList
  | .precisionOverflow => "precision too large".toList
  | .conversion c index =>
    "unsupported format character '".toList ++ [asciiShown c] ++ "' (0x".toList ++
      Text.hexOfNat c.toNat ++ ") at index ".toList ++ Text.ofNat index

/-- A failed read ends the evaluation. -/
def ofRead {α : Type} : Except ReadFault α → Except ProbeFault α
  | .ok a => .ok a
  | .error e => .error (.read e)

end ProbeFault

namespace Value

def ofInt? : Option Int → Value
  | none => .absent
  | some n => .int n

def ofReal? : Option Double → Value
  | none => .absent
  | some d => .real d

def ofText? : Option Text → Value
  | none => .absent
  | some t => .text t

/-- The name of a kind of value. -/
def kind : Value → Text
  | .absent => "NoneType".toList
  | .int _ => "int".toList
  | .real _ => "float".toList
  | .bytes _ => "bytes".toList
  | .text _ => "str".toList

def shown : Value → Text
  | .absent => "None".toList
  | .int n => Text.ofInt n
  | .real d => d.text .double shownNumber
  | .bytes b => Bytes.quoted b
  | .text t => t.quoted

/-- Lexicographic order: a beginning comes before the whole. -/
def lexicographic : List Nat → List Nat → Ordering
  | [], [] => .eq
  | [], _ :: _ => .lt
  | _ :: _, [] => .gt
  | a :: as, b :: bs => (compare a b).then (lexicographic as bs)

/-- The order of two values of comparable kinds; a value that is not a number has none. -/
def order? : Value → Value → Option (Option Ordering)
  | .int a, .int b => some (some (compare a b))
  | .real a, .real b => some (do return compare (← a.rank?) (← b.rank?))
  | .int a, .real b => some (b.compareInt .double a)
  | .real a, .int b => some ((a.compareInt .double b).map Ordering.swap)
  | .bytes a, .bytes b => some (some (lexicographic (a.map UInt8.toNat) (b.map UInt8.toNat)))
  | .text a, .text b => some (some (lexicographic (a.map Char.toNat) (b.map Char.toNat)))
  | _, _ => none

/-- Whether `actual` stands to `expected` as the operator says. -/
def compare (actual expected : Value) (operator : Operator) : Except ProbeFault Bool :=
  match operator with
  | .any => .ok true
  | .unknown name => .error (.operator (.unknown name) none)
  | o =>
    match order? actual expected with
    | some order => .ok (o.holds order)
    | none =>
      if actual = .absent ∧ expected = .absent ∧ o.isEquality then .ok (o = .equal)
      else if o.isEquality then .ok (o = .notEqual)
      else .error (.unordered o.symbol actual.kind expected.kind)

end Value
end FileMagic
