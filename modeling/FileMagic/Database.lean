import FileMagic.Description
import FileMagic.Rule

/-! A database is a sequence of top-level rules, of which the first that matches describes the
content. -/

namespace FileMagic

structure Database where
  rules : List Rule

namespace Database

def size (d : Database) : Nat := d.rules.length

instance : Append Database := ⟨fun a b => ⟨a.rules ++ b.rules⟩⟩

/-- The rule at a position; positions below zero are counted from the end. -/
def get? (d : Database) (index : Int) : Option Rule :=
  if 0 ≤ index then d.rules[index.toNat]?
  else if (-index).toNat ≤ d.size then d.rules[d.size - (-index).toNat]?
  else none

def shown (d : Database) : Text :=
  "<Database(".toList ++ Text.ofNat d.size ++ " rules)>".toList

/-- The messages of the first rule that matches. -/
def firstMatch (s : Stream) : List Rule → Except ProbeFault (Option (List Text))
  | [] => .ok none
  | r :: rest => do
    match ← r.walk s with
    | some messages => pure (some messages)
    | none => firstMatch s rest

def matching (d : Database) (s : Stream) : Except ProbeFault (Option (List Text)) :=
  firstMatch s d.rules

/-- The description of messages; there is one even when nothing matches or nothing is said. -/
def describe : Option (List Text) → Text
  | none => Description.fallback
  | some messages =>
    let description := Description.ofMessages messages
    if description.isEmpty then Description.fallback else description

def probe (d : Database) (s : Stream) : Except ProbeFault Text :=
  (d.matching s).map describe

end Database
end FileMagic
