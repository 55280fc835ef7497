import FileMagic.Pattern.Token

/-! Patterns from tokens. Groups that are open form a stack; each remembers the alternatives
read so far and whether the last thing read can be repeated, which nothing can be twice. -/

namespace FileMagic.Pattern

/-- A group that is open. The items of the current alternative come last first. -/
structure Frame where
  opening : Opening
  index : Nat
  options : Options
  alternatives : List Pattern
  items : List Pattern
  repeatable : Bool

namespace Frame

def start (opening : Opening) (index : Nat) (options : Options) : Frame :=
  ⟨opening, index, options, [], [], false⟩

def sequence : List Pattern → Pattern
  | [] => .empty
  | [p] => p
  | p :: rest => .seq p (sequence rest)

def choice : List Pattern → Pattern
  | [] => .empty
  | [p] => p
  | p :: rest => .either p (choice rest)

def push (f : Frame) (p : Pattern) : Frame :=
  { f with items := p :: f.items, repeatable := true }

def bar (f : Frame) : Frame :=
  { f with alternatives := sequence f.items.reverse :: f.alternatives, items := [],
           repeatable := false }

/-- All that the group holds. -/
def body (f : Frame) : Pattern := choice f.bar.alternatives.reverse

/-- The group as a pattern. -/
def close (f : Frame) : Pattern :=
  match f.opening with
  | .capture | .named _ => .group f.index f.body
  | .atomic => .atomic f.body
  | .look behind positive => .look behind positive f.body
  | .options _ _ => f.body

end Frame

/-- The groups that are open, innermost first, around the top level, and the groups that have
been numbered. -/
structure Builder where
  frame : Frame
  outer : List Frame
  count : Nat
  names : List (Text × Nat)

namespace Builder

def start (options : Options) : Builder := ⟨.start (.options [] []) 0 options, [], 0, []⟩

def push (b : Builder) (p : Pattern) : Builder := { b with frame := b.frame.push p }

/-- Whether a group is still open. Only captures have numbers from one up. -/
def isOpen (b : Builder) (index : Nat) : Bool :=
  index ≠ 0 && (b.frame :: b.outer).any (·.index = index)

def enter (b : Builder) (opening : Opening) (index : Nat) (options : Options) : Builder :=
  { b with frame := .start opening index options, outer := b.frame :: b.outer }

/-- A reference to a group, which must have been closed if it has been opened. -/
def refer (b : Builder) (index : Nat) : Option Builder :=
  if b.isOpen index then none else some (b.push (.again index b.frame.options.fold))

/-- Names of the groups of the whole pattern give the numbers for references by name. -/
def step (groupNames : List (Text × Nat)) (b : Builder) (t : Token) : Option Builder :=
  let options := b.frame.options
  match t with
  | .set s => some (b.push (.octet s options.fold))
  | .dot =>
    some (b.push (.octet ⟨if options.dotAll then [] else [.range 10 10], true⟩ false))
  | .anchor a => some (b.push (.anchor a))
  | .lineStart => some (b.push (.anchor (if options.multiline then .lineStart else .textStart)))
  | .lineEnd => some (b.push (.anchor (if options.multiline then .lineEnd else .lastLineEnd)))
  | .again index => b.refer index
  | .againNamed name =>
    match groupNames.lookup name with
    | some index => b.refer index
    | none => none
  | .repetition least most greed =>
    match b.frame.repeatable, b.frame.items with
    | true, p :: rest =>
      some { b with frame := { b.frame with
        items := .repeated p least most greed :: rest, repeatable := false } }
    | _, _ => none
  | .bar => some { b with frame := b.frame.bar }
  | .opening (.options on off) => do
    let inner ← (← options.setAll true on).setAll false off
    some (b.enter (.options on off) 0 inner)
  | .opening .capture =>
    some ({ b with count := b.count + 1 }.enter .capture (b.count + 1) options)
  | .opening (.named name) =>
    match b.names.lookup name with
    | some index => some (b.enter (.named name) index options)
    | none =>
      some ({ b with count := b.count + 1, names := (name, b.count + 1) :: b.names }.enter
        (.named name) (b.count + 1) options)
  | .opening opening => some (b.enter opening 0 options)
  | .closing =>
    match b.outer with
    | [] => none
    | f :: rest => some { b with frame := f.push b.frame.close, outer := rest }
  | .options _ => some b

end Builder

/-- The names of groups with their numbers; a name that comes again keeps its number. -/
def groupNames (tokens : List Token) : List (Text × Nat) :=
  (tokens.foldl (fun (names, count) t =>
    match t with
    | .opening .capture => (names, count + 1)
    | .opening (.named name) =>
      if (names.lookup name).isSome then (names, count) else ((name, count + 1) :: names, count + 1)
    | _ => (names, count)) ([], 0)).1

/-- The options of the whole pattern. -/
def globalOptions (fold : Bool) (tokens : List Token) : Option Options :=
  tokens.foldlM (fun o t =>
    match t with
    | .options on => o.setAll true on
    | _ => some o) { Options.none with fold := fold }

/-- The greatest group that a pattern refers to. -/
def lastReference (tokens : List Token) : Nat :=
  tokens.foldl (fun n t =>
    match t with
    | .again index => max n index
    | _ => n) 0

def ofTokens? (fold : Bool) (tokens : List Token) : Option Pattern := do
  let options ← globalOptions fold tokens
  let b ← tokens.foldlM (Builder.step (groupNames tokens)) (Builder.start options)
  if b.outer.isEmpty && lastReference tokens ≤ b.count then some b.frame.body else none

/-- The pattern that octets write. -/
def ofBytes? (fold : Bool) (source : Bytes) : Option Pattern := do
  let tokens ← Token.list? (source.map fun b => Char.ofNat b.toNat)
  ofTokens? fold tokens

end FileMagic.Pattern
