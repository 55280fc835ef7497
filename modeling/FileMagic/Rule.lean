import FileMagic.Test.Evaluate

/-! Rules form trees: the children of a rule are looked at only when it matches, in order, and
a fallback child only when no child before it has matched. The messages of the rules that
match are collected from the root down. -/

namespace FileMagic

structure Rule where
  test : Test
  message : Text
  children : List Rule

namespace Rule

mutual

/-- The messages of a rule and of the rules below it that match, or none if it does not. -/
def walk (s : Stream) : Rule → Except ProbeFault (Option (List Text))
  | ⟨test, message, children⟩ => do
    match ← test.evaluate s message with
    | none => pure none
    | some own =>
      let below ← walkChildren s false children
      pure (some (own :: below))

/-- The messages of siblings; `matched` tells whether one before them has matched. -/
def walkChildren (s : Stream) (matched : Bool) : List Rule → Except ProbeFault (List Text)
  | [] => .ok []
  | ⟨test, message, children⟩ :: rest =>
    if test.isFallback && matched then walkChildren s matched rest
    else do
      match ← walk s ⟨test, message, children⟩ with
      | none => walkChildren s matched rest
      | some messages =>
        let more ← walkChildren s true rest
        pure (messages ++ more)

end

def shown (r : Rule) : Text :=
  "<Rule(".toList ++ r.test.shown ++ ", ".toList ++ r.message.quoted ++ ", children=".toList ++
    Text.ofNat r.children.length ++ ")>".toList

end Rule

/-- A rule without its children, and how deep below a top-level rule it is. -/
structure Entry where
  depth : Nat
  test : Test
  message : Text

namespace Forest

/-- Puts an entry before the trees that follow it: those that are deeper, up to the first that
is not, are its children. -/
def graft (e : Entry) (trees : List (Nat × Rule)) : List (Nat × Rule) :=
  let below := trees.takeWhile fun t => e.depth < t.1
  (e.depth, ⟨e.test, e.message, below.map (·.2)⟩) :: trees.dropWhile fun t => e.depth < t.1

/-- The trees of entries in the order in which a walk from the root down meets them. -/
def ofEntries (entries : List Entry) : List Rule := (entries.foldr graft []).map (·.2)

mutual

/-- The entries of a tree in the order of a walk from the root down. -/
def entriesAt (depth : Nat) : Rule → List Entry
  | ⟨test, message, children⟩ => ⟨depth, test, message⟩ :: entriesBelow (depth + 1) children

def entriesBelow (depth : Nat) : List Rule → List Entry
  | [] => []
  | r :: rest => entriesAt depth r ++ entriesBelow depth rest

end

def toEntries (rules : List Rule) : List Entry := entriesBelow 0 rules

end Forest
end FileMagic
