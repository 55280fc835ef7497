import FileMagic.Pattern.Basic
import FileMagic.RegexEngine

/-! Matching by backtracking: alternatives are tried in order and repetitions in the order of
their greed, and the first way through wins. A matcher takes what has to match afterwards as
an argument, so that it is recursion on the pattern; repetitions end because an iteration that
consumes nothing is the last. -/

namespace FileMagic

/-- A place in a text, and what the groups have matched so far. Both sides of the place are at
hand, the nearest octet first. -/
structure Cursor where
  before : Bytes
  after : Bytes
  position : Nat
  groups : List (Nat × Bytes)
deriving DecidableEq, Repr

namespace Cursor

/-- Over one octet, to the left when looking behind. -/
def next? (c : Cursor) (behind : Bool) : Option (UInt8 × Cursor) :=
  if behind then
    match c.before with
    | [] => none
    | b :: rest => some (b, { c with
        before := rest, after := b :: c.after, position := c.position - 1 })
  else
    match c.after with
    | [] => none
    | b :: rest => some (b, { c with
        before := b :: c.before, after := rest, position := c.position + 1 })

/-- How many octets there are to move over. -/
def room (c : Cursor) (behind : Bool) : Nat :=
  if behind then c.before.length else c.after.length

/-- The octets between two places, from left to right. -/
def since (c : Cursor) (start : Nat) : Bytes :=
  if start ≤ c.position then (c.before.take (c.position - start)).reverse
  else c.after.take (start - c.position)

def capture (c : Cursor) (index start : Nat) : Cursor :=
  { c with groups := (index, c.since start) :: c.groups.filter (·.1 ≠ index) }

def sameOctet (fold : Bool) (a b : UInt8) : Bool :=
  a = b || (fold && otherCase a.toNat = b.toNat)

/-- Over given octets, in the order in which they are met. -/
def over? (c : Cursor) (behind fold : Bool) : Bytes → Option Cursor
  | [] => some c
  | a :: rest =>
    match c.next? behind with
    | none => none
    | some (b, d) => if sameOctet fold a b then over? d behind fold rest else none

def isWord (b : Option UInt8) : Bool :=
  match b with
  | none => false
  | some b => OctetClass.word.holds b.toNat

def atBoundary (c : Cursor) : Bool := isWord c.before.head? != isWord c.after.head?

def satisfies (c : Cursor) : Anchor → Bool
  | .textStart => c.before.isEmpty
  | .textEnd => c.after.isEmpty
  | .lastLineEnd => c.after.isEmpty || c.after = [10]
  | .lineStart => c.before.isEmpty || c.before.head? = some 10
  | .lineEnd => c.after.isEmpty || c.after.head? = some 10
  | .boundary => c.atBoundary
  | .noBoundary => !c.atBoundary

end Cursor

namespace Pattern

/-- A matcher gives the place where the whole match ends, if what follows agrees. -/
abbrev Matcher := Cursor → (Cursor → Option Cursor) → Option Cursor

/-- Exactly `n` iterations. -/
def times (body : Matcher) : Nat → Matcher
  | 0, c, k => k c
  | n + 1, c, k => body c fun d => times body n d k

/-- Up to `n` more iterations, as many as possible first. -/
def greedily (body : Matcher) : Nat → Matcher
  | 0, c, k => k c
  | n + 1, c, k =>
    (body c fun d => if d.position = c.position then k d else greedily body n d k).or (k c)

/-- Up to `n` more iterations, as few as possible first. -/
def lazily (body : Matcher) : Nat → Matcher
  | 0, c, k => k c
  | n + 1, c, k =>
    (k c).or (body c fun d => if d.position = c.position then k d else lazily body n d k)

/-- The first way through on its own, whatever follows. -/
def alone (body : Matcher) : Matcher := fun c k => (body c some).bind k

/-- The iterations beyond the least number. All but one consume octets, so there are not more
than there is room for. -/
def extra (behind : Bool) (most : Option Nat) (least : Nat) (c : Cursor) : Nat :=
  match most with
  | none => c.room behind + 1
  | some n => min (n - least) (c.room behind + 1)

def run (behind : Bool) : Pattern → Matcher
  | .empty, c, k => k c
  | .octet s fold, c, k =>
    match c.next? behind with
    | none => none
    | some (b, d) => if s.contains fold b then k d else none
  | .seq first second, c, k =>
    if behind then run behind second c fun d => run behind first d k
    else run behind first c fun d => run behind second d k
  | .either first second, c, k => (run behind first c k).or (run behind second c k)
  | .group index body, c, k => run behind body c fun d => k (d.capture index c.position)
  | .again index fold, c, k =>
    match c.groups.lookup index with
    | none => none
    | some text => (c.over? behind fold (if behind then text.reverse else text)).bind k
  | .repeated body least most greed, c, k =>
    let matcher := run behind body
    match greed with
    | .greedy => times matcher least c fun d => greedily matcher (extra behind most least d) d k
    | .lazy => times matcher least c fun d => lazily matcher (extra behind most least d) d k
    | .possessive =>
      alone (fun c k => times matcher least c fun d =>
        greedily matcher (extra behind most least d) d k) c k
  | .atomic body, c, k => alone (run behind body) c k
  | .look toLeft positive body, c, k =>
    match run toLeft body c some with
    | some d => if positive then k { c with groups := d.groups } else none
    | none => if positive then none else k c
  | .anchor a, c, k => if c.satisfies a then k c else none

/-- The first match that starts at the cursor or after it. -/
def searchFrom (p : Pattern) (before : Bytes) (position : Nat) : Bytes → Option Regex.Span
  | [] => (run false p ⟨before, [], position, []⟩ some).map fun d => ⟨position, d.position⟩
  | b :: rest =>
    match run false p ⟨before, b :: rest, position, []⟩ some with
    | some d => some ⟨position, d.position⟩
    | none => searchFrom p (b :: before) (position + 1) rest

/-- The leftmost match in a text. -/
def search (p : Pattern) (text : Bytes) : Option Regex.Span := p.searchFrom [] 0 text

end Pattern
end FileMagic
