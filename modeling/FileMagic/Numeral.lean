import FileMagic.Fault
import FileMagic.Text.Blank
import FileMagic.Text.Digit

/-! Integer numerals. A literal announces its base by a mark (0x, 0o, 0b, or a plain leading
zero for octal); its figures are digits with single underscores between them, may be padded
with blanks, may be digits of any script, and may repeat the mark of their base once. -/

namespace FileMagic.Numeral

/-- The value of a digit or letter, as far as hexadecimal goes. -/
def figure? (c : Char) : Option Nat :=
  if '0' ≤ c && c ≤ '9' then some (c.toNat - 48)
  else if 'a' ≤ c && c ≤ 'f' then some (c.toNat - 87)
  else if 'A' ≤ c && c ≤ 'F' then some (c.toNat - 55)
  else none

def isFigure (base : Nat) (c : Char) : Bool :=
  match figure? c with
  | some n => n < base
  | none => false

/-- A character as numerals see it: blanks and digits of all scripts count as their ASCII
equals, and any other character beyond ASCII as one that no numeral contains. -/
def plain (c : Char) : Char :=
  if c.toNat < 127 then c
  else if isBlank c then ' '
  else match decimalDigit? c with
    | some n => asciiDigit n
    | none => '?'

/-- Whether the figures start and it is negative, and what follows the sign. -/
def splitSign : Text → Bool × Text
  | '+' :: rest => (false, rest)
  | '-' :: rest => (true, rest)
  | t => (false, t)

theorem splitSign_eq {t : Text} (h : ∀ c ∈ t.head?, c ≠ '+' ∧ c ≠ '-') :
    splitSign t = (false, t) := by
  unfold splitSign
  split
  · exact absurd rfl (h '+' rfl).1
  · exact absurd rfl (h '-' rfl).2
  · rfl

/-- The letter that marks a base. -/
def baseMark? : Char → Option Nat
  | 'x' | 'X' => some 16
  | 'o' | 'O' => some 8
  | 'b' | 'B' => some 2
  | _ => none

/-- Figures without the mark of their own base, which one underscore may follow. -/
def dropMark (base : Nat) : Text → Text
  | '0' :: m :: rest =>
    if baseMark? m = some base then
      match rest with
      | '_' :: figures => figures
      | figures => figures
    else '0' :: m :: rest
  | t => t

def belongs (base : Nat) (c : Char) : Bool := isFigure base c || c = '_'

/-- Underscores stand between figures only. `apart` says that a figure has to come next, at
the start and after an underscore. -/
def separatedFrom (apart : Bool) : Text → Bool
  | [] => !apart
  | c :: rest => if c = '_' then !apart && separatedFrom true rest else separatedFrom false rest

def separated (t : Text) : Bool := separatedFrom true t

def positional (base : Nat) (figures : Text) : Nat :=
  figures.foldl (fun n c => n * base + (figure? c).getD 0) 0

/-- The most digits a decimal numeral may have. -/
def decimalLimit : Nat := 4300

/-- The integer that `text` denotes in `base`. -/
def read (base : Nat) (text : Text) : Except Fault Int :=
  let (negative, figures) := splitSign ((text.map plain).dropWhile isAsciiSpace)
  let figures := dropMark base figures
  let run := figures.takeWhile (belongs base)
  let digits := run.filter (· ≠ '_')
  if !separated run then .error (.numeral base text)
  else if base = 10 ∧ decimalLimit < digits.length then .error (.numeralTooLong digits.length)
  else if !(figures.dropWhile (belongs base)).all isAsciiSpace then .error (.numeral base text)
  else
    let n := positional base digits
    .ok (if negative then -n else n)

/-- The base that an unsigned literal announces, and its figures. -/
def announced : Text → Nat × Text
  | ['0'] => (10, ['0'])
  | '0' :: m :: rest =>
    match baseMark? m with
    | some base => (base, rest)
    | none => (8, m :: rest)
  | t => (10, t)

/-- The integer that a literal of a rule denotes. -/
def parse (text : Text) : Except Fault Int :=
  let (negative, body) := splitSign text
  let (base, figures) := announced body
  match figures with
  | [] | '+' :: _ | '-' :: _ => .error (.integerLiteral text)
  | _ => (read base figures).map fun n => if negative then -n else n

/-- The decimal numeral of an integer, unless it has more digits than a numeral may have. -/
def write (n : Int) : Except Fault Text :=
  if 10 ^ decimalLimit ≤ n.natAbs then .error .numberTooLong else .ok (Text.ofInt n)

theorem write_of_lt {n : Int} (h : n.natAbs < 10 ^ decimalLimit) :
    write n = .ok (Text.ofInt n) := if_neg (Nat.not_le.mpr h)

theorem write_of_le {n : Int} (h : 10 ^ decimalLimit ≤ n.natAbs) :
    write n = .error .numberTooLong := if_pos h

theorem eq_of_write {n : Int} {t : Text} (h : write n = .ok t) : t = Text.ofInt n := by
  rw [write] at h
  split at h
  · cases h
  · exact (Except.ok.inj h).symm

/-- A numeral of twenty digits is not too long. -/
theorem lt_limit {n : Nat} (h : n < 10 ^ 20) : n < 10 ^ decimalLimit :=
  Nat.lt_of_lt_of_le h (Nat.pow_le_pow_right (by decide) (by decide))

end FileMagic.Numeral
