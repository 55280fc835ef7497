import FileMagic.Text.Number
import FileMagic.Text.Printable

/-! Quoted texts, as error messages and the shown form of a rule contain them: one line of
printable characters, whatever the text holds. Apostrophes are the quotes unless the text has
an apostrophe and no double quote. -/

namespace FileMagic

/-- A backslash, a letter and `width` hexadecimal digits. -/
def hexEscape (letter : Char) (width n : Nat) : Text :=
  '\\' :: letter :: Text.padStart width '0' (Text.hexOfNat n)

/-- The short escapes; `quote` is the mark that surrounds the text. -/
def namedEscape? (quote c : Char) : Option Text :=
  if c = quote || c = '\\' then some ['\\', c]
  else if c = '\n' then some ['\\', 'n']
  else if c = '\r' then some ['\\', 'r']
  else if c = '\t' then some ['\\', 't']
  else none

def quotedChar (quote c : Char) : Text :=
  match namedEscape? quote c with
  | some e => e
  | none =>
    if isPrintable c then [c]
    else if c.toNat < 0x100 then hexEscape 'x' 2 c.toNat
    else if c.toNat < 0x10000 then hexEscape 'u' 4 c.toNat
    else hexEscape 'U' 8 c.toNat

/-- Octets are quoted as the characters of their values, beyond ASCII always as hexadecimal. -/
def quotedByte (quote : Char) (b : UInt8) : Text :=
  let c := Char.ofNat b.toNat
  match namedEscape? quote c with
  | some e => e
  | none => if ' ' ≤ c && c ≤ '~' then [c] else hexEscape 'x' 2 b.toNat

def quoteMark (apostrophe doubleQuote : Bool) : Char :=
  if apostrophe && !doubleQuote then '"' else '\''

def Text.quoted (t : Text) : Text :=
  let quote := quoteMark (t.contains '\'') (t.contains '"')
  quote :: t.flatMap (quotedChar quote) ++ [quote]

def Bytes.quoted (b : Bytes) : Text :=
  let quote := quoteMark (b.contains 39) (b.contains 34)
  'b' :: quote :: b.flatMap (quotedByte quote) ++ [quote]

end FileMagic
