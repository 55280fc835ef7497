import FileMagic.CommandLine
import FileMagic.Pattern.Engine

/-! The program itself: it reads the files that the command line needs, and prints. -/

open FileMagic

/-- The variable that names the file of the user's rules. -/
def rulesVariable : String := "MAGIC"

/-- The furthest offset that one can move to in a file of the usual file system: the size of the
largest file in it. -/
def fileLimit : Nat := 2 ^ 44 - 2 ^ 12

/-- A directory can be opened but not read, and its name is missing from the failure. -/
def readFile (path : Text) : IO (Except FileFault File) := do
  try
    let content ← IO.FS.readBinFile (String.ofList path)
    pure (.ok (.ofBytes fileLimit content.toList))
  catch
    | .noFileOrDirectory .. => pure (.error .missing)
    | .inappropriateType (some _) .. => pure (.error .notDirectory)
    | .inappropriateType none .. => pure (.error .directory)
    | _ => pure (.error .missing)

def main (args : List String) : IO UInt32 := do
  let arguments := args.map String.toList
  let rulesPath := (← IO.getEnv rulesVariable).map String.toList
  let paths := arguments ++ rulesPath.toList
  let files ← paths.mapM fun path => do pure (path, ← readFile path)
  let file (path : Text) : Except FileFault File := (files.lookup path).getD (.error .missing)
  let result := CommandLine.outcome ⟨"filemagic".toList, arguments, rulesPath, file⟩
  IO.print (String.ofList result.output)
  IO.eprint (String.ofList result.errors)
  pure (UInt32.ofNat result.status)
