import FileMagic.Text.Basic

/-! Rule texts come in two forms. In memory a line may end at any of the Unicode line
boundaries; in a file only the three usual newlines count, they are read as a line feed, and
every line keeps it. -/

namespace FileMagic.Text

/-- The line boundaries of a text in memory. -/
def isLineBreak (c : Char) : Bool :=
  ('\n' ≤ c && c ≤ '\r') || ('\x1c' ≤ c && c ≤ '\x1e') ||
    c.toNat = 0x85 || c.toNat = 0x2028 || c.toNat = 0x2029

def isNewline (c : Char) : Bool := c = '\n' || c = '\r'

/-- The lines of a text without their ends. A carriage return and the line feed after it
are one boundary, and the text after the last boundary is a line only if it is not empty. -/
def lines : Text → List Text
  | [] => []
  | '\r' :: '\n' :: rest => [] :: lines rest
  | c :: rest =>
    if isLineBreak c then [] :: lines rest
    else match lines rest with
      | [] => [[c]]
      | l :: ls => (c :: l) :: ls

/-- Every newline as a line feed. -/
def unifyNewlines : Text → Text
  | [] => []
  | '\r' :: '\n' :: rest => '\n' :: unifyNewlines rest
  | c :: rest => (if c = '\r' then '\n' else c) :: unifyNewlines rest

/-- The pieces that end with a line feed, and what is left after the last one. -/
def piecesAtLineFeed : Text → List Text
  | [] => []
  | c :: rest =>
    if c = '\n' then ['\n'] :: piecesAtLineFeed rest
    else match piecesAtLineFeed rest with
      | [] => [[c]]
      | l :: ls => (c :: l) :: ls

/-- The lines of a file, each with the line feed that ends it. -/
def fileLines (t : Text) : List Text := piecesAtLineFeed (unifyNewlines t)

/-- A line without the newlines at its end. -/
def chomp (t : Text) : Text := dropEnd isNewline t

theorem chomp_eq_iff {t u : Text} : chomp t = u ↔ ∃ newlines, t = u ++ newlines ∧
    (∀ c ∈ newlines, c = '\n' ∨ c = '\r') ∧ ∀ c ∈ u.getLast?, c ≠ '\n' ∧ c ≠ '\r' := by
  have hnewline : ∀ c, isNewline c = true ↔ c = '\n' ∨ c = '\r' := by simp [isNewline]
  simp only [chomp, dropEnd_eq_iff, hnewline]
  cases u.getLast? with
  | none => simp
  | some c => simp [isNewline]

theorem lines_feed (rest : Text) : lines ('\n' :: rest) = [] :: lines rest := rfl

/-- A boundary that is not the first half of another one. -/
theorem lines_break {c : Char} {rest : Text} (hc : isLineBreak c = true)
    (hr : c = '\r' → rest.head? ≠ some '\n') : lines (c :: rest) = [] :: lines rest := by
  rw [lines, if_pos hc]
  intro rest' hcr hrest
  exact hr hcr (by rw [hrest]; rfl)

theorem lines_char {c : Char} (hc : isLineBreak c = false) (rest : Text) :
    lines (c :: rest) = match lines rest with
      | [] => [[c]]
      | l :: ls => (c :: l) :: ls := by
  have hcr : c ≠ '\r' := by
    intro h
    subst h
    cases hc
  rw [lines, if_neg (by simp [hc])]
  intro rest' h
  exact absurd h hcr

end FileMagic.Text
