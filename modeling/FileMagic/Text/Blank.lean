import FileMagic.Text.Basic

/-! Blanks separate the fields of a rule line and are stripped from the ends of lines and
descriptions. The class is that of the bidirectional types B, S and WS together with the
space separators; the four information separators U+001C to U+001F belong to it. -/

namespace FileMagic

/-- The blanks that numerals may be padded with: the ASCII ones, separators excepted. -/
def isAsciiSpace (c : Char) : Bool :=
  c = ' ' || ('\t' ≤ c && c ≤ '\r')

def isBlank (c : Char) : Bool :=
  if c.toNat < 128 then isAsciiSpace c || ('\x1c' ≤ c && c ≤ '\x1f')
  else
    c.toNat = 0x85 || c.toNat = 0xa0 || c.toNat = 0x1680 ||
      (0x2000 ≤ c.toNat && c.toNat ≤ 0x200a) ||
      c.toNat = 0x2028 || c.toNat = 0x2029 || c.toNat = 0x202f ||
      c.toNat = 0x205f || c.toNat = 0x3000

namespace Text

/-- A text without the blanks at its two ends. -/
def strip (t : Text) : Text := dropEnd isBlank (t.dropWhile isBlank)

/-- The maximal runs of characters that are not blank, in order. -/
def words : Text → List Text
  | [] => []
  | c :: rest =>
    if isBlank c then words rest
    else match rest with
      | [] => [[c]]
      | d :: _ =>
        if isBlank d then [c] :: words rest
        else match words rest with
          | [] => [[c]]
          | w :: ws => (c :: w) :: ws

theorem words_of_blank {c : Char} (h : isBlank c = true) (t : Text) :
    words (c :: t) = words t := by
  simp [words, h]

end Text
end FileMagic
