import FileMagic.Text.Basic

/-! Patterns are regular expressions over octets. Classes and letter cases are those of ASCII:
an octet beyond it is in no class, and has no other case. -/

namespace FileMagic

inductive OctetClass where
  | alpha
  | digit
  | alnum
  | upper
  | lower
  | space
  | blank
  | punct
  | print
  | graph
  | cntrl
  | xdigit
  | word
deriving DecidableEq, Repr

namespace OctetClass

def between (low high n : Nat) : Bool := low ≤ n && n ≤ high

def holds (c : OctetClass) (n : Nat) : Bool :=
  let upper := between 65 90 n
  let lower := between 97 122 n
  let digit := between 48 57 n
  match c with
  | .alpha => upper || lower
  | .digit => digit
  | .alnum => upper || lower || digit
  | .upper => upper
  | .lower => lower
  | .space => between 9 13 n || n = 32
  | .blank => n = 9 || n = 32
  | .punct => between 33 126 n && !(upper || lower || digit)
  | .print => between 32 126 n
  | .graph => between 33 126 n
  | .cntrl => n < 32 || n = 127
  | .xdigit => digit || between 65 70 n || between 97 102 n
  | .word => upper || lower || digit || n = 95

/-- The classes by the names they have in brackets. -/
def named : List (Text × OctetClass) :=
  [("alpha", .alpha), ("digit", .digit), ("alnum", .alnum), ("upper", .upper),
    ("lower", .lower), ("space", .space), ("blank", .blank), ("punct", .punct),
    ("print", .print), ("graph", .graph), ("cntrl", .cntrl), ("xdigit", .xdigit),
    ("word", .word)].map fun (name, c) => (String.toList name, c)

end OctetClass

inductive SetItem where
  | range (low high : Nat)
  | cls (c : OctetClass) (negated : Bool)
deriving DecidableEq, Repr

namespace SetItem

def holds (i : SetItem) (n : Nat) : Bool :=
  match i with
  | .range low high => low ≤ n && n ≤ high
  | .cls c negated => c.holds n != negated

end SetItem

/-- The octets that one place of a pattern accepts. -/
structure OctetSet where
  items : List SetItem
  negated : Bool
deriving DecidableEq, Repr

/-- The other case of a letter. -/
def otherCase (n : Nat) : Nat :=
  if OctetClass.between 65 90 n then n + 32
  else if OctetClass.between 97 122 n then n - 32
  else n

namespace OctetSet

def octet (n : Nat) : OctetSet := ⟨[.range n n], false⟩

/-- With `fold`, a set holds a letter when it lists the letter in either case. -/
def contains (s : OctetSet) (fold : Bool) (b : UInt8) : Bool :=
  let n := b.toNat
  (s.items.any fun i => i.holds n || (fold && i.holds (otherCase n))) != s.negated

end OctetSet

/-- Conditions on a position. -/
inductive Anchor where
  | textStart
  | textEnd
  /-- The end, or the line feed that is the last octet. -/
  | lastLineEnd
  | lineStart
  | lineEnd
  | boundary
  | noBoundary
deriving DecidableEq, Repr

inductive Greed where
  | greedy
  | lazy
  | possessive
deriving DecidableEq, Repr

inductive Pattern where
  | empty
  | octet (s : OctetSet) (fold : Bool)
  | seq (first second : Pattern)
  | either (first second : Pattern)
  | group (index : Nat) (body : Pattern)
  /-- The octets that a group has matched. -/
  | again (index : Nat) (fold : Bool)
  | repeated (body : Pattern) (least : Nat) (most : Option Nat) (greed : Greed)
  | atomic (body : Pattern)
  | look (behind positive : Bool) (body : Pattern)
  | anchor (a : Anchor)
deriving DecidableEq

end FileMagic
