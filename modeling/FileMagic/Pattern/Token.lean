import FileMagic.Pattern.Basic

/-! The tokens of a written pattern. Octets are read as the characters of the same values. A
brace that starts no repetition and a bracket that starts no class are ordinary characters;
what is neither known nor ordinary refuses the pattern. -/

namespace FileMagic.Pattern

/-- Options of a pattern or a group: letters in either case, a dot for every octet, and line
anchors. -/
structure Options where
  fold : Bool
  dotAll : Bool
  multiline : Bool
deriving DecidableEq, Repr

namespace Options

def none : Options := ⟨false, false, false⟩

def set (o : Options) (on : Bool) : Char → Option Options
  | 'i' => some { o with fold := on }
  | 's' => some { o with dotAll := on }
  | 'm' => some { o with multiline := on }
  | _ => .none

def setAll (o : Options) (on : Bool) (letters : Text) : Option Options :=
  letters.foldlM (fun o c => o.set on c) o

end Options

/-- What a parenthesis opens. -/
inductive Opening where
  | capture
  | named (name : Text)
  | atomic
  | look (behind positive : Bool)
  /-- A group that only changes options: letters turned on and off. -/
  | options (on off : Text)
deriving DecidableEq, Repr

inductive Token where
  | set (s : OctetSet)
  | dot
  | anchor (a : Anchor)
  | lineStart
  | lineEnd
  | again (index : Nat)
  | againNamed (name : Text)
  | repetition (least : Nat) (most : Option Nat) (greed : Greed)
  | bar
  | opening (o : Opening)
  | closing
  /-- Options of the whole pattern, wherever they are written. -/
  | options (on : Text)
deriving DecidableEq, Repr

namespace Token

def isOctal (c : Char) : Bool := '0' ≤ c && c ≤ '7'

def hexValue? (c : Char) : Option Nat :=
  if '0' ≤ c && c ≤ '9' then some (c.toNat - 48)
  else if 'a' ≤ c && c ≤ 'f' then some (c.toNat - 87)
  else if 'A' ≤ c && c ≤ 'F' then some (c.toNat - 55)
  else none

/-- The value of exactly `count` hexadecimal digits, and the text after them. -/
def hex? (count : Nat) (t : Text) : Option (Nat × Text) :=
  if t.length < count then none
  else
    ((t.take count).foldlM (fun n c => (hexValue? c).map (n * 16 + ·)) 0).map
      (·, t.drop count)

def octalValue (digits : Text) : Nat := digits.foldl (fun n c => n * 8 + (c.toNat - 48)) 0

def decimalValue (digits : Text) : Nat := digits.foldl (fun n c => n * 10 + (c.toNat - 48)) 0

/-- What an escape stands for. -/
inductive Escape where
  | octet (n : Nat)
  | cls (c : OctetClass) (negated : Bool)
  | anchor (a : Anchor)
  | again (index : Nat)
deriving DecidableEq, Repr

/-- Up to three octal digits, of which the first is given. -/
def octal? (first : Char) (t : Text) : Option (Escape × Text) :=
  if isOctal first then
    let more := (t.takeWhile isOctal).take 2
    some (.octet (octalValue (first :: more)), t.drop more.length)
  else none

/-- A number after a backslash: three octal digits, or the number of a group. -/
def number (first : Char) (t : Text) : Escape × Text :=
  match t with
  | second :: rest =>
    if second.isDigit then
      match rest with
      | third :: rest' =>
        if isOctal first && isOctal second && isOctal third then
          (.octet (octalValue [first, second, third] % 256), rest')
        else (.again (decimalValue [first, second]), rest)
      | [] => (.again (decimalValue [first, second]), rest)
    else (.again (decimalValue [first]), t)
  | [] => (.again (decimalValue [first]), t)

/-- The escape that follows a backslash. Anchors and groups have no place in a set. -/
def escape? (inSet : Bool) : Text → Option (Escape × Text)
  | [] => none
  | c :: rest =>
    match c with
    | 'x' => (hex? 2 rest).map fun (n, rest) => (.octet n, rest)
    | 'u' => (hex? 4 rest).map fun (n, rest) => (.octet n, rest)
    | 'U' => (hex? 8 rest).map fun (n, rest) => (.octet n, rest)
    | 'd' => some (.cls .digit false, rest)
    | 'D' => some (.cls .digit true, rest)
    | 's' => some (.cls .space false, rest)
    | 'S' => some (.cls .space true, rest)
    | 'w' => some (.cls .word false, rest)
    | 'W' => some (.cls .word true, rest)
    | 'a' => some (.octet 7, rest)
    | 'f' => some (.octet 12, rest)
    | 'n' => some (.octet 10, rest)
    | 'r' => some (.octet 13, rest)
    | 't' => some (.octet 9, rest)
    | 'v' => some (.octet 11, rest)
    | _ =>
      if !inSet && c = 'A' then some (.anchor .textStart, rest)
      else if !inSet && c = 'Z' then some (.anchor .textEnd, rest)
      else if !inSet && c = 'b' then some (.anchor .boundary, rest)
      else if !inSet && c = 'B' then some (.anchor .noBoundary, rest)
      else if inSet && c = 'b' then some (.octet 8, rest)
      else if c.isAlpha then none
      else if c.isDigit then
        if inSet || c = '0' then octal? c rest else some (number c rest)
      else some (.octet c.toNat, rest)

/-- Characters of the names of classes; case and separators do not matter. -/
def isNameChar (c : Char) : Bool :=
  c.isAlphanum || c = ' ' || c = '&' || c = '_' || c = '-' || c = '.' || c = '/'

def className (t : Text) : Text :=
  (t.filter fun c => c ≠ '_' && c ≠ '-' && c ≠ ' ').map Char.toLower

/-- A class in brackets and colons, of which the opening ones are left out. No class ends here
unless the outer option is there; the inner one is empty for an unknown name. -/
def bracketClass? (t : Text) : Option (Option (SetItem × Text)) :=
  let (negated, t) := match t with
    | '^' :: rest => (true, rest)
    | t => (false, t)
  match t.dropWhile isNameChar with
  | ':' :: ']' :: rest =>
    some ((OctetClass.named.lookup (className (t.takeWhile isNameChar))).map fun c =>
      (.cls c negated, rest))
  | _ => none

/-- One end of a range, or a class, and the text after it. -/
def setMember? : Text → Option (SetItem × Text)
  | [] => none
  | '\\' :: rest =>
    match escape? true rest with
    | some (.octet n, rest) => some (.range n n, rest)
    | some (.cls c negated, rest) => some (.cls c negated, rest)
    | _ => none
  | '[' :: ':' :: rest =>
    match bracketClass? rest with
    | some found => found
    | none => some (.range 91 91, ':' :: rest)
  | c :: rest => some (.range c.toNat c.toNat, rest)

/-- The items from a member on: the member, the range it starts, or the member and a hyphen
before something that ends no range. -/
def setItems? (t : Text) : Option (List SetItem × Text) := do
  let (first, rest) ← setMember? t
  match first, rest with
  | .range low _, '-' :: ']' :: rest => some ([.range low low, .range 45 45], ']' :: rest)
  | .range low _, '-' :: rest =>
    let (second, rest) ← setMember? rest
    match second with
    | .range high _ => if high < low then none else some ([.range low high], rest)
    | .cls c negated => some ([.range low low, .range 45 45, .cls c negated], rest)
  | item, rest => some ([item], rest)

/-- The items of a set up to its closing bracket, which stands for itself in the first
place. There is an item for each unit of `fuel` at most. -/
def setBody? : Nat → Bool → Text → Option (List SetItem × Text)
  | 0, _, _ => none
  | fuel + 1, first, t =>
    match first, t with
    | false, ']' :: rest => some ([], rest)
    | _, t => do
      let (items, rest) ← setItems? t
      let (more, rest) ← setBody? fuel false rest
      some (items ++ more, rest)

def set? (t : Text) : Option (Token × Text) :=
  let (negated, t) := match t with
    | '^' :: rest => (true, rest)
    | t => (false, t)
  (setBody? (t.length + 1) true t).map fun (items, rest) => (.set ⟨items, negated⟩, rest)

/-- Repetition counts are below this bound. -/
def countLimit : Nat := 2 ^ 32 - 1

/-- The counts in braces, of which the opening one is left out. As with `bracketClass?`, the
outer option tells whether braces of this form are there. -/
def counts? (t : Text) : Option (Option (Nat × Option Nat × Text)) :=
  let low := t.takeWhile Char.isDigit
  let rest := t.dropWhile Char.isDigit
  let checked (least : Nat) (most : Option Nat) (rest : Text) :=
    if countLimit ≤ least || countLimit ≤ most.getD 0 || (most.any (· < least)) then none
    else some (least, most, rest)
  match rest with
  | '\x7d' :: rest =>
    if low.isEmpty then none
    else some (checked (decimalValue low) (some (decimalValue low)) rest)
  | ',' :: rest =>
    let high := rest.takeWhile Char.isDigit
    match rest.dropWhile Char.isDigit with
    | '\x7d' :: rest =>
      some (checked (decimalValue low)
        (if high.isEmpty then none else some (decimalValue high)) rest)
    | _ => none
  | _ => none

/-- A repetition with the mark of its greed. -/
def withGreed (least : Nat) (most : Option Nat) : Text → Token × Text
  | '?' :: rest => (.repetition least most .lazy, rest)
  | '+' :: rest => (.repetition least most .possessive, rest)
  | t => (.repetition least most .greedy, t)

def isIdentifier (t : Text) : Bool :=
  match t with
  | [] => false
  | c :: _ => !c.isDigit && t.all fun c => c.isAlphanum || c = '_'

/-- A name up to the character that ends it. -/
def name? (stop : Char) (t : Text) : Option (Text × Text) :=
  let name := t.takeWhile (· ≠ stop)
  match t.dropWhile (· ≠ stop) with
  | _ :: rest => if isIdentifier name then some (name, rest) else none
  | [] => none

/-- Option letters, which end with a colon for a group and with a parenthesis for the whole
pattern. The latter can only turn options on. -/
def options? (t : Text) : Option (Token × Text) := do
  let on := t.takeWhile Char.isAlpha
  let (off, rest) := match t.dropWhile Char.isAlpha with
    | '-' :: rest => (rest.takeWhile Char.isAlpha, rest.dropWhile Char.isAlpha)
    | rest => ([], rest)
  let _ ← Options.none.setAll true (on ++ off)
  if on.any (off.contains ·) then none
  else match rest with
    | ':' :: rest => some (.opening (.options on off), rest)
    | ')' :: rest => if off.isEmpty then some (.options on, rest) else none
    | _ => none

/-- What follows an opening parenthesis. -/
def opening? : Text → Option (Token × Text)
  | '?' :: '<' :: '=' :: rest => some (.opening (.look true true), rest)
  | '?' :: '<' :: '!' :: rest => some (.opening (.look true false), rest)
  | '?' :: '<' :: rest => (name? '>' rest).map fun (n, rest) => (.opening (.named n), rest)
  | '?' :: '=' :: rest => some (.opening (.look false true), rest)
  | '?' :: '!' :: rest => some (.opening (.look false false), rest)
  | '?' :: '>' :: rest => some (.opening .atomic, rest)
  | '?' :: 'P' :: '<' :: rest => (name? '>' rest).map fun (n, rest) => (.opening (.named n), rest)
  | '?' :: 'P' :: '=' :: rest => (name? ')' rest).map fun (n, rest) => (.againNamed n, rest)
  | '?' :: '#' :: rest =>
    match rest.dropWhile (· ≠ ')') with
    | _ :: rest => some (.options [], rest)
    | [] => none
  | '?' :: rest => options? rest
  | '*' :: _ => none
  | t => some (.opening .capture, t)

/-- The token that starts with a character. -/
def read? (c : Char) (rest : Text) : Option (Token × Text) :=
  match c with
  | '|' => some (.bar, rest)
  | ')' => some (.closing, rest)
  | '(' => opening? rest
  | '.' => some (.dot, rest)
  | '^' => some (.lineStart, rest)
  | '$' => some (.lineEnd, rest)
  | '[' => set? rest
  | '*' => some (withGreed 0 none rest)
  | '+' => some (withGreed 1 none rest)
  | '?' => some (withGreed 0 (some 1) rest)
  | '\x7b' =>
    match counts? rest with
    | none => some (.set (.octet c.toNat), rest)
    | some none => none
    | some (some (least, most, rest)) => some (withGreed least most rest)
  | '\\' =>
    match escape? false rest with
    | none => none
    | some (.octet n, rest) => some (.set (.octet n), rest)
    | some (.cls c negated, rest) => some (.set ⟨[.cls c negated], false⟩, rest)
    | some (.anchor a, rest) => some (.anchor a, rest)
    | some (.again index, rest) => some (.again index, rest)
  | _ => some (.set (.octet c.toNat), rest)

/-- The tokens of a text after `skip` characters that belong to the token before. -/
def listAfter? : Nat → Text → Option (List Token)
  | _, [] => some []
  | skip + 1, _ :: rest => listAfter? skip rest
  | 0, c :: rest =>
    match read? c rest with
    | none => none
    | some (token, after) =>
      (listAfter? (rest.length - after.length) rest).map (token :: ·)

def list? (t : Text) : Option (List Token) := listAfter? 0 t

end Token
end FileMagic.Pattern
