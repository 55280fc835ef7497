import FileMagic.Pattern.Engine
import FileMagic.Proofs.Compile
import FileMagic.Proofs.Utf8
import Mathlib.Data.List.DropRight

/-! # Rules in memory and in a file

A text in memory and a file that holds it in UTF-8 compile to the same rules, or are reported
alike, as long as newlines are the only line boundaries. The two are cut into lines in different
ways: a file first has its newlines unified, which moves no boundary (`lines_unifyNewlines`), and
then keeps the line feed of each line, which compiling takes off (`map_chomp_piecesAtLineFeed`).
So both give the same lines with the same numbers. -/

namespace FileMagic

namespace Text

variable {c : Char} {rest t : Text}

theorem unifyNewlines_char (hc : c ≠ '\r') (rest : Text) :
    unifyNewlines (c :: rest) = c :: unifyNewlines rest := by
  rw [unifyNewlines, if_neg hc]
  intro rest' h
  exact absurd h hc

/-- Every newline is one boundary, also as a line feed. -/
theorem lines_unifyNewlines (t : Text) : lines (unifyNewlines t) = lines t := by
  induction t using unifyNewlines.induct with
  | case1 => rfl
  | case2 rest ih => exact congrArg ([] :: ·) ih
  | case3 c rest hpair ih =>
    by_cases hc : c = '\r'
    · subst hc
      have hhead : rest.head? ≠ some '\n' := by
        intro h
        obtain ⟨rest', rfl⟩ := List.head?_eq_some_iff.mp h
        exact hpair rest' rfl rfl
      rw [unifyNewlines, if_pos rfl, lines_feed, lines_break rfl fun _ => hhead, ih]
      exact hpair
    · rw [unifyNewlines_char hc]
      cases hb : isLineBreak c with
      | true => rw [lines_break hb fun h => absurd h hc, lines_break hb fun h => absurd h hc, ih]
      | false => rw [lines_char hb, lines_char hb, ih]

theorem mem_unifyNewlines (h : c ∈ unifyNewlines t) : c = '\n' ∨ c ∈ t ∧ c ≠ '\r' := by
  induction t using unifyNewlines.induct with
  | case1 => cases h
  | case2 rest ih =>
    rcases List.mem_cons.mp h with rfl | h
    · exact .inl rfl
    · exact (ih h).imp_right fun ⟨hm, hne⟩ => ⟨by simp [hm], hne⟩
  | case3 d rest hpair ih =>
    rw [unifyNewlines.eq_3 _ _ hpair] at h
    rcases List.mem_cons.mp h with rfl | h
    · by_cases hd : d = '\r'
      · exact .inl (if_pos hd)
      · rw [if_neg hd]
        exact .inr ⟨List.mem_cons_self .., hd⟩
    · exact (ih h).imp_right fun ⟨hm, hne⟩ => ⟨List.mem_cons_of_mem d hm, hne⟩

theorem chomp_char (hc : isNewline c = false) (t : Text) : chomp (c :: t) = c :: chomp t := by
  have hlast : [c].getLast?.any isNewline = false := hc
  exact dropEnd_append_of_getLast (List.cons_ne_nil c []) hlast t

theorem chomp_chomp (t : Text) : t.chomp.chomp = t.chomp :=
  List.rdropWhile_idempotent isNewline t

/-- Where line feeds are the only boundaries, the pieces are the lines. -/
theorem map_chomp_piecesAtLineFeed (h : ∀ c ∈ t, isLineBreak c = true → c = '\n') :
    (piecesAtLineFeed t).map chomp = lines t := by
  induction t with
  | nil => rfl
  | cons c rest ih =>
    obtain ⟨hc, hrest⟩ := List.forall_mem_cons.mp h
    have hpieces := ih hrest
    by_cases hfeed : c = '\n'
    · subst hfeed
      rw [lines_feed, ← hpieces]
      rfl
    · have hbreak : isLineBreak c = false := Bool.eq_false_iff.mpr fun hb => hfeed (hc hb)
      have hnewline : isNewline c = false := by
        have hcr : c ≠ '\r' := by
          intro hcr
          subst hcr
          cases hbreak
        simp [isNewline, hfeed, hcr]
      rw [piecesAtLineFeed, if_neg hfeed, lines_char hbreak, ← hpieces]
      cases piecesAtLineFeed rest with
      | nil => exact congrArg ([·]) (chomp_char hnewline [])
      | cons l ls => exact congrArg (· :: ls.map chomp) (chomp_char hnewline l)

/-- The lines of a file are those of its text, but for the line feeds at their ends. -/
theorem map_chomp_fileLines (h : ∀ c ∈ t, isLineBreak c = true → isNewline c = true) :
    t.fileLines.map chomp = t.lines := by
  have hfeed : ∀ c ∈ unifyNewlines t, isLineBreak c = true → c = '\n' := by
    intro c hc hb
    rcases mem_unifyNewlines hc with hn | ⟨hm, hcr⟩
    · exact hn
    · simpa [isNewline, hcr] using h c hm hb
  rw [fileLines, map_chomp_piecesAtLineFeed hfeed, lines_unifyNewlines]

end Text

namespace RuleText

section
variable [RegexEngine]

/-- Newlines at the ends of lines do not matter. -/
theorem readEntries_map_chomp (number limit : Nat) (lines : List Text) :
    readEntries number limit (lines.map Text.chomp) = readEntries number limit lines := by
  induction lines generalizing number limit with
  | nil => rfl
  | cons line rest ih => simp only [List.map_cons, readEntries, Text.chomp_chomp, ih]

theorem compileLines_map_chomp (lines : List Text) :
    compileLines (lines.map Text.chomp) = compileLines lines := by
  rw [compileLines, compileLines, readEntries_map_chomp]

theorem compileFile_of_decode? {content : Bytes} {t : Text} (h : Utf8.decode? content = some t) :
    compileFile content = (compileLines t.fileLines).mapError .source := by
  simp only [compileFile, h]
  cases compileLines t.fileLines <;> rfl

/-- A text and the file that holds it have the same rules, or the same fault in the same line. -/
theorem compileFile_utf8 {t : Text}
    (h : ∀ c ∈ t, Text.isLineBreak c = true → Text.isNewline c = true) :
    compileFile t.utf8 = (compile t).mapError .source := by
  have hdecode : Utf8.decode? t.utf8 = some t := by simp [Utf8.decode?, Utf8.decode_utf8]
  rw [compileFile_of_decode? hdecode, compile, ← Text.map_chomp_fileLines h,
    compileLines_map_chomp]

end

/-- All three newlines, a blank line between them and a last line without one, which is reported
with the same number. -/
theorem compileFile_utf8_mixed :
    ∃ t : Text, t = "0 byte 1 one\r\n\r>1 byte 2 two\n>>>0 byte x".toList ∧
      (∀ c ∈ t, Text.isLineBreak c = true → Text.isNewline c = true) ∧
      compileFile t.utf8 = .error (.source ⟨4, ">>>0 byte x".toList, .orphan 2⟩) := by
  let t : Text := "0 byte 1 one\r\n\r>1 byte 2 two\n>>>0 byte x".toList
  have hall : t.all (fun c => !Text.isLineBreak c || Text.isNewline c) = true := by decide
  have h : ∀ c ∈ t, Text.isLineBreak c = true → Text.isNewline c = true := by
    intro c hc hb
    simpa [hb] using List.all_eq_true.mp hall c hc
  exact ⟨t, rfl, h, (compileFile_utf8 h).trans rfl⟩

end RuleText
end FileMagic
