import FileMagic.Database

/-! A registry collects rules from contributors, each with a name of its own, and builds a
database in the order of registration. -/

namespace FileMagic

structure Registry where
  contributors : List (Text × List Rule)

/-- A name that has been registered already. -/
structure DuplicateName where
  name : Text
deriving DecidableEq, Repr

def DuplicateName.message (d : DuplicateName) : Text :=
  "contributor '".toList ++ d.name ++ "' is already registered".toList

namespace Registry

def empty : Registry := ⟨[]⟩

def names (r : Registry) : List Text := r.contributors.map (·.1)

def shown (r : Registry) : Text :=
  "<Registry(".toList ++ Text.join ", ".toList r.names ++ ")>".toList

def register (r : Registry) (name : Text) (rules : List Rule) : Except DuplicateName Registry :=
  if r.names.contains name then .error ⟨name⟩ else .ok ⟨r.contributors ++ [(name, rules)]⟩

def build (r : Registry) : Database := ⟨r.contributors.flatMap (·.2)⟩

end Registry
end FileMagic
