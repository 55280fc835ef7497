import FileMagic.Text.Digit

/-! Message templates. A conversion is a per cent sign, flags, a width, a precision after a
point, a length that means nothing, and a letter; a per cent sign that starts none is text
like everything else. -/

namespace FileMagic

/-- What a conversion writes. -/
inductive ConversionKind where
  | percent
  | text
  /-- An integer in decimal, signed or not. -/
  | decimal (signed : Bool)
  /-- An integer in hexadecimal, with capital letters or not. -/
  | hexadecimal (capital : Bool)
deriving DecidableEq, Repr

namespace ConversionKind

def ofLetter? : Char → Option ConversionKind
  | '%' => some .percent
  | 's' => some .text
  | 'd' | 'i' => some (.decimal true)
  | 'u' => some (.decimal false)
  | 'x' => some (.hexadecimal false)
  | 'X' => some (.hexadecimal true)
  | _ => none

end ConversionKind

structure Conversion where
  flags : Text
  width : Text
  precision : Option Text
  kind : ConversionKind
deriving DecidableEq, Repr

namespace Conversion

def isFlag (c : Char) : Bool := c = '#' || c = '+' || c = '-' || c = ' ' || c = '0'

/-- The text after a length, which is h or l once or twice, or q. -/
def dropLength : Text → Text
  | 'h' :: 'h' :: rest => rest
  | 'l' :: 'l' :: rest => rest
  | 'h' :: rest => rest
  | 'l' :: rest => rest
  | 'q' :: rest => rest
  | t => t

/-- The precision, if there is a point with digits after it, and the text that follows. -/
def splitPrecision : Text → Option Text × Text
  | '.' :: rest =>
    match rest.takeWhile isDecimalDigit with
    | [] => (none, '.' :: rest)
    | digits => (some digits, rest.dropWhile isDecimalDigit)
  | t => (none, t)

/-- The conversion that a text starts with, its per cent sign left out, and the text after
it. -/
def read? (t : Text) : Option (Conversion × Text) :=
  let afterFlags := t.dropWhile isFlag
  let (precision, afterPrecision) := splitPrecision (afterFlags.dropWhile isDecimalDigit)
  match dropLength afterPrecision with
  | [] => none
  | letter :: rest =>
    (ConversionKind.ofLetter? letter).map fun kind =>
      (⟨t.takeWhile isFlag, afterFlags.takeWhile isDecimalDigit, precision, kind⟩, rest)

end Conversion

inductive Piece where
  | char (c : Char)
  | conversion (c : Conversion)
deriving DecidableEq, Repr

namespace Template

/-- The pieces of a template after `skip` characters that belong to the piece before. -/
def piecesAfter : Nat → Text → List Piece
  | _, [] => []
  | skip + 1, _ :: rest => piecesAfter skip rest
  | 0, c :: rest =>
    if c = '%' then
      match Conversion.read? rest with
      | some (conversion, after) =>
        .conversion conversion :: piecesAfter (rest.length - after.length) rest
      | none => .char c :: piecesAfter 0 rest
    else .char c :: piecesAfter 0 rest

def pieces (template : Text) : List Piece := piecesAfter 0 template

theorem piecesAfter_eq_drop (n : Nat) (t : Text) :
    piecesAfter n t = piecesAfter 0 (t.drop n) := by
  induction t generalizing n with
  | nil => cases n <;> rfl
  | cons c rest ih =>
    cases n with
    | zero => rfl
    | succ n => simpa [piecesAfter] using ih n

end Template
end FileMagic
