import FileMagic.Text.Quoted

/-! Operators compare what was read with what a rule expects. A test may also carry the name of
an operator that does not exist; it is refused when the test is evaluated. -/

namespace FileMagic

inductive Operator where
  | equal
  | notEqual
  | greater
  | less
  | atLeast
  | atMost
  /-- Accepts whatever was read. -/
  | any
  | unknown (name : Text)
deriving DecidableEq, Repr

namespace Operator

/-- The operators that exist, in the order of their numbers. -/
def all : List Operator := [.equal, .notEqual, .greater, .less, .atLeast, .atMost, .any]

def name : Operator → Text
  | .equal => "EQUAL".toList
  | .notEqual => "NOT_EQUAL".toList
  | .greater => "GREATER_THAN".toList
  | .less => "LESS_THAN".toList
  | .atLeast => "GREATER_OR_EQUAL".toList
  | .atMost => "LESS_OR_EQUAL".toList
  | .any => "ANY".toList
  | .unknown name => name

def ofName (t : Text) : Operator := (all.find? (·.name = t)).getD (.unknown t)

/-- An operator as messages show it: with its number, or quoted when it does not exist. -/
def shown : Operator → Text
  | .unknown name => name.quoted
  | o => "<Operator.".toList ++ o.name ++ [':', ' '] ++ Text.ofNat (all.idxOf o) ++ ['>']

/-- The sign that stands for the operator in an expression. -/
def symbol : Operator → Text
  | .equal => "==".toList
  | .notEqual => "!=".toList
  | .greater => ">".toList
  | .less => "<".toList
  | .atLeast => ">=".toList
  | .atMost => "<=".toList
  | .any | .unknown _ => []

def isEquality (o : Operator) : Bool := o = .equal || o = .notEqual

/-- Whether two values in a given order satisfy the operator; values may have no order, and
then they only differ. -/
def holds : Operator → Option Ordering → Bool
  | .equal, o => o = some .eq
  | .notEqual, o => o ≠ some .eq
  | .greater, o => o = some .gt
  | .less, o => o = some .lt
  | .atLeast, o => o = some .gt || o = some .eq
  | .atMost, o => o = some .lt || o = some .eq
  | .any, _ => true
  | .unknown _, _ => false

/-- The operators that tests for equality accept. -/
def equalities : List Operator := [.equal, .notEqual, .any]

end Operator
end FileMagic
