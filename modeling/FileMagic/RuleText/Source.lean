import FileMagic.RuleText.Line
import FileMagic.Text.Utf8

/-! Rule texts. Blank lines and comments are skipped; every other line is a rule, whose parent
is the nearest rule one level up among those before it. The first line that is no rule, or
whose parent is missing, is reported. -/

namespace FileMagic

inductive LineFault where
  | fault (f : Fault)
  /-- No rule at the depth above. -/
  | orphan (parentDepth : Nat)
deriving DecidableEq, Repr

/-- The line that cannot be compiled, and where it is. -/
structure SourceFault where
  number : Nat
  line : Text
  reason : LineFault
deriving DecidableEq, Repr

def LineFault.message : LineFault → Text
  | .fault f => f.message
  | .orphan depth => "no parent rule at depth ".toList ++ Text.ofNat depth

/-- The report of a line, with its number if that is known. -/
def lineReport (line reason : Text) (number : Option Int) : Text :=
  "invalid line".toList ++ (match number with
    | none => []
    | some n => ' ' :: Text.ofInt n) ++
    " '".toList ++ line ++ "': ".toList ++ reason

def SourceFault.message (f : SourceFault) : Text :=
  lineReport f.line f.reason.message (some f.number)

namespace RuleText

def isSkipped (line : Text) : Bool :=
  match line.strip with
  | [] => true
  | c :: _ => c = '#'

theorem isSkipped_iff {line : Text} :
    isSkipped line = true ↔ line.strip = [] ∨ line.strip.head? = some '#' := by
  unfold isSkipped
  cases line.strip with
  | nil => simp
  | cons c rest => simp

variable [RegexEngine]

/-- The entries of lines, numbered from `number` on. A rule may be at most `limit` deep: one
level below the rule before it. -/
def readEntries (number limit : Nat) : List Text → Except SourceFault (List Entry)
  | [] => .ok []
  | line :: rest =>
    let line := line.chomp
    if isSkipped line then readEntries (number + 1) limit rest
    else match readLine line.strip with
      | .error f => .error ⟨number, line, .fault f⟩
      | .ok e =>
        if limit < e.depth then .error ⟨number, line, .orphan (e.depth - 1)⟩
        else (readEntries (number + 1) (e.depth + 1) rest).map (e :: ·)

/-- The rules of lines. They come out the same when the entries are read one after the other, each
put below the last rule of the level above (`compileLines_eq_grow`). -/
def compileLines (lines : List Text) : Except SourceFault (List Rule) :=
  (readEntries 1 0 lines).map Forest.ofEntries

/-- The rules of a text in memory. -/
def compile (text : Text) : Except SourceFault (List Rule) := compileLines text.lines

inductive FileTextFault where
  | undecodable
  | source (f : SourceFault)
deriving DecidableEq, Repr

/-- The rules of a file, which is a text in UTF-8. -/
def compileFile (content : Bytes) : Except FileTextFault (List Rule) :=
  match Utf8.decode? content with
  | none => .error .undecodable
  | some text =>
    match compileLines text.fileLines with
    | .ok rules => .ok rules
    | .error f => .error (.source f)

end RuleText
end FileMagic
