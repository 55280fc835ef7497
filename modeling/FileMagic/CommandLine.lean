import FileMagic.Builtin.Registry
import FileMagic.Directory

/-! The command line describes one file. The rules of a file named by a variable of the
environment are tried before those that come with the engine. Faults of rules, operators and
files are reported; a fault of the engine's arithmetic or of an encoding ends the run without
a report. -/

namespace FileMagic.CommandLine

/-- The program, its arguments, the path of the user's rules and the files that paths lead
to. -/
structure Invocation where
  program : Text
  arguments : List Text
  rulesPath : Option Text
  file : Text → Except FileFault File

/-- What a run that ends by itself leaves behind. -/
structure Result where
  status : Nat
  output : Text
  errors : Text
deriving DecidableEq, Repr

/-- What can go wrong with a file to describe or with rules. -/
inductive Failure where
  | rulesFile (path : Text) (fault : FileFault)
  | rulesText (fault : RuleText.FileTextFault)
  | source (fault : OpenFault)
  | probe (fault : ProbeFault)
deriving DecidableEq, Repr

namespace Failure

/-- Whether a failure is reported. -/
def isReported : Failure → Bool
  | .rulesFile .. | .source _ => true
  | .rulesText .undecodable => false
  | .rulesText (.source _) => true
  | .probe (.operator ..) => true
  | .probe (.read (.unreadable ..)) => true
  | .probe _ => false

def message : Failure → Text
  | .rulesFile path fault => fault.message path
  | .rulesText .undecodable => "undecodable rules".toList
  | .rulesText (.source fault) => fault.message
  | .source fault => fault.message
  | .probe fault => fault.message

end Failure

variable [RegexEngine]

/-- The rules of the user, none without a path. -/
def userRules (i : Invocation) : Except Failure (List Rule) :=
  match i.rulesPath with
  | none | some [] => .ok []
  | some path =>
    match i.file path with
    | .error fault => .error (.rulesFile path fault)
    | .ok file =>
      match RuleText.compileFile file.content with
      | .error fault => .error (.rulesText fault)
      | .ok rules => .ok rules

def describe (i : Invocation) (path : Text) : Except Failure Text :=
  match userRules i with
  | .error failure => .error failure
  | .ok rules =>
    match Stream.ofSource (.path "path".toList path (i.file path)) with
    | .error fault => .error (.source fault)
    | .ok stream =>
      match (Database.mk rules ++ Builtin.database).probe stream with
      | .error fault => .error (.probe fault)
      | .ok description => .ok description

def usage (program : Text) : Text := "usage: ".toList ++ program ++ " <file>\n".toList

def report (path : Text) (failure : Failure) : Text :=
  "ERROR:__main__:error getting type of file ".toList ++ path ++ ": ".toList ++
    failure.message ++ ['\n']

def answer (path description : Text) : Text :=
  "file ".toList ++ path ++ " is type ".toList ++ description ++ ['\n']

/-- The result of a run, or the failure that ends it without a report. -/
def run (i : Invocation) : Except Failure Result :=
  match i.arguments with
  | [path] =>
    match describe i path with
    | .ok description => .ok ⟨0, answer path description, []⟩
    | .error failure =>
      if failure.isReported then .ok ⟨1, [], report path failure⟩ else .error failure
  | _ => .ok ⟨1, usage i.program, []⟩

/-- What the caller of the program sees. A failure without a report ends the run with the same
status as one that is reported, and before anything is printed. -/
def outcome (i : Invocation) : Result :=
  match run i with
  | .ok result => result
  | .error failure => ⟨1, [], failure.message ++ ['\n']⟩

end FileMagic.CommandLine
