import FileMagic.Test.Basic

/-! The types that rules read. A type is written as a keyword, before which a u makes it
unsigned and le, be or me gives its byte order, and after which a slash starts an extender. -/

namespace FileMagic.RuleText

inductive ReadType where
  | integer (width : Width)
  | real (type : RealType)
  | date (scale : DateScale) (isLocal : Bool)
  | string
  | regex
  | guid
  | default
  /-- A keyword that is known but not evaluated. -/
  | unsupported (keyword : Text)
deriving DecidableEq, Repr

namespace ReadType

def keywords : List (Text × ReadType) :=
  [("byte", .integer .byte), ("short", .integer .short), ("long", .integer .long),
    ("quad", .integer .quad), ("float", .real .single), ("double", .real .double),
    ("date", .date .seconds false), ("ldate", .date .seconds true),
    ("qdate", .date .longSeconds false), ("qldate", .date .longSeconds true),
    ("qwdate", .date .fileTime false), ("string", .string), ("regex", .regex),
    ("guid", .guid), ("default", .default)].map fun (name, t) => (String.toList name, t)

def unsupportedKeywords : List Text :=
  ["pstring", "indirect", "name", "use", "search", "der", "beid3", "leid3", "clear",
    "offset"].map String.toList

/-- Types of more than one octet have a byte order. -/
def hasOrder : ReadType → Bool
  | .integer width => width ≠ .byte
  | .real _ | .date .. => true
  | _ => false

def canBeUnsigned : ReadType → Bool
  | .integer _ | .date .. => true
  | _ => false

def keyword : ReadType → Text
  | .unsupported keyword => keyword
  | t => ((keywords.find? fun k => k.2 = t).map (·.1)).getD []

end ReadType

structure TypeText where
  type : ReadType
  signed : Bool
  endianness : Endianness
  extender : Text
deriving DecidableEq, Repr

/-- The marks of byte orders. -/
def splitOrder : Text → Option (Endianness × Text)
  | 'l' :: 'e' :: rest => some (.little, rest)
  | 'b' :: 'e' :: rest => some (.big, rest)
  | 'm' :: 'e' :: rest => some (.middle, rest)
  | _ => none

/-- A type with the mark of its byte order, if it has one. -/
def orderedType? (name : Text) : Option (ReadType × Endianness) :=
  let plain := (ReadType.keywords.lookup name).map (·, Endianness.native)
  match splitOrder name with
  | none => plain
  | some (endianness, rest) =>
    match ReadType.keywords.lookup rest with
    | some t => if t.hasOrder then some (t, endianness) else plain
    | none => plain

def splitUnsigned : Text → Bool × Text
  | 'u' :: rest => (true, rest)
  | t => (false, t)

def readType (text : Text) : Except Fault TypeText :=
  let (name, extender) := Text.cut '/' text
  if name ∈ ReadType.unsupportedKeywords then .ok ⟨.unsupported name, true, .native, extender⟩
  else
    let (unsigned, base) := splitUnsigned name
    if base ∈ ReadType.unsupportedKeywords then
      .ok ⟨.unsupported base, !unsigned, .native, extender⟩
    else
      match orderedType? base with
      | none => .error (.typeName name)
      | some (type, endianness) =>
        if unsigned && !type.canBeUnsigned then .error (.notUnsigned name)
        else .ok ⟨type, !unsigned, endianness, extender⟩

end FileMagic.RuleText
