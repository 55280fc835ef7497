import FileMagic.Builtin.Elf
import FileMagic.Builtin.Kernel
import FileMagic.Builtin.Png
import FileMagic.Builtin.Scripts
import FileMagic.Builtin.Zip
import FileMagic.Registry

/-! The rules that come with the engine, by contributors in the order in which they are
probed. -/

namespace FileMagic.Builtin

variable [RegexEngine]

/-- The rules of a contributor, whose lines compile if the engine accepts the expressions in
them. -/
def rulesOf (lines : List Text) : List Rule :=
  match RuleText.compileLines lines with
  | .ok rules => rules
  | .error _ => []

def contributors : List (Text × List Text) :=
  [("elf".toList, elfLines), ("png".toList, pngLines), ("zip".toList, zipLines),
    ("kernel".toList, kernelLines), ("scripts".toList, scriptsLines)]

def registry : Registry := ⟨contributors.map fun (name, lines) => (name, rulesOf lines)⟩

def database : Database := registry.build

end FileMagic.Builtin
