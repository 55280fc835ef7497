import FileMagic.CommandLine
import FileMagic.Pattern.Engine
import FileMagic.Proofs.FileText
import FileMagic.Proofs.Medium

/-! # What the caller of the command line sees

A run ends with the status 0 exactly when there is something to answer: one file is asked for,
the rules of the environment compile, the file can be opened, and its octets have a description by
these rules followed by those of the engine (`Invocation.Describes`); but the octets are read from
the file, and a file cannot be asked for all that an object in memory can (`Invocation.Strains`).
Everything is found out before anything is printed, so wherever a run fails on the way, and whether
or not that is reported, nothing is printed of an answer (`outcome_of_error`). -/

namespace FileMagic.CommandLine

variable {i : Invocation} {path : Text}

/-- The file at a path can be opened, and is read from by this stream then. -/
def Invocation.Opens (i : Invocation) (path : Text) (file : File) (stream : Stream) : Prop :=
  i.file path = .ok file ∧ Stream.ofSource (.path "path".toList path (.ok file)) = .ok stream

theorem Invocation.Opens.gives {file : File} {stream : Stream} (h : i.Opens path file stream) :
    stream.Gives ∧ stream.copy = .ofBytes file.content := by
  obtain rfl := Except.ok.inj h.2
  exact ⟨⟨rfl, nofun⟩, rfl⟩

section
variable [RegexEngine]

/-- The rules of the environment: none without a path, else those of the text in the file. -/
inductive Invocation.Supplies (i : Invocation) : List Rule → Prop
  | unset : i.rulesPath = none → i.Supplies []
  | empty : i.rulesPath = some [] → i.Supplies []
  | file {path text : Text} {file : File} {rules : List Rule} : i.rulesPath = some path →
      path ≠ [] → i.file path = .ok file → file.content = text.utf8 →
      RuleText.compileLines text.fileLines = .ok rules → i.Supplies rules

/-- One file is asked for, and its octets have a description by the rules of the environment
followed by those of the engine. -/
structure Invocation.Describes (i : Invocation) (path description : Text) : Prop where
  arguments : i.arguments = [path]
  described : ∃ rules file stream, i.Supplies rules ∧ i.Opens path file stream ∧
    (Database.mk rules ++ Builtin.database).probe (.ofBytes file.content) = .ok description

/-- Some read fails when the file is probed. -/
def Invocation.Strains (i : Invocation) (path : Text) : Prop :=
  ∃ rules file stream fault, i.Supplies rules ∧ i.Opens path file stream ∧
    (Database.mk rules ++ Builtin.database).probe stream = .error (.read fault)

end

end FileMagic.CommandLine
