import FileMagic.Proofs.Except
import FileMagic.Proofs.Forest
import FileMagic.RuleText.Source

/-! # What compiling accepts, gives and reports

The lines that are neither blank nor comments are read one by one. All of them have to be
rules, and their depths have to nest; then the result is the one forest that lists these rules
at these depths. Otherwise the first line that is no rule, or whose depth leaves a level out,
is reported, and no line after it matters. Both halves follow from the two characterizations
of `readEntries`, each an induction along the lines whose invariant is the depth that the next
rule may have. -/

namespace FileMagic.RuleText
open Forest

/-- The lines that have to be rules, without the newlines at their ends. -/
def ruleLines (lines : List Text) : List Text :=
  (lines.map Text.chomp).filter fun line => !isSkipped line

theorem ruleLines_of_skipped {line : Text} (h : isSkipped line.chomp = true)
    (rest : List Text) : ruleLines (line :: rest) = ruleLines rest := by
  rw [ruleLines, List.map_cons, List.filter_cons_of_neg (by simp [h])]
  rfl

theorem ruleLines_cons {line : Text} (h : isSkipped line.chomp = false) (rest : List Text) :
    ruleLines (line :: rest) = line.chomp :: ruleLines rest := by
  rw [ruleLines, List.map_cons, List.filter_cons_of_pos (by simp [h])]
  rfl

variable [RegexEngine]

/-- Every rule line is one, and these are the entries in order. -/
def Reads (lines : List Text) (entries : List Entry) : Prop :=
  (ruleLines lines).map (fun line => readLine line.strip) = entries.map .ok

/-- Why a line cannot follow lines with these entries: it is no rule, or it is too deep. -/
inductive Breaks (limit : Nat) (entries : List Entry) (line : Text) : LineFault → Prop
  | fault {f : Fault} : readLine line.strip = .error f → Breaks limit entries line (.fault f)
  | orphan {e : Entry} : readLine line.strip = .ok e → ¬ Nested limit (entries ++ [e]) →
      Breaks limit entries line (.orphan (e.depth - 1))

theorem Breaks.cons_iff {limit : Nat} {e : Entry} {entries : List Entry} {line : Text}
    {reason : LineFault} (he : e.depth ≤ limit) :
    Breaks limit (e :: entries) line reason ↔ Breaks (e.depth + 1) entries line reason := by
  constructor
  · intro h
    rcases h with hl | ⟨hl, hn⟩
    · exact .fault hl
    · exact .orphan hl fun h => hn ⟨he, h⟩
  · intro hb
    rcases hb with hl | ⟨hl, hn⟩
    · exact .fault hl
    · exact .orphan hl fun h => hn h.2

theorem reads_nil {entries : List Entry} : Reads [] entries ↔ entries = [] := by
  rw [Reads, ruleLines, List.map_nil, List.filter_nil, List.map_nil, eq_comm, List.map_eq_nil_iff]

theorem reads_of_skipped {line : Text} {rest : List Text} {entries : List Entry}
    (h : isSkipped line.chomp = true) : Reads (line :: rest) entries ↔ Reads rest entries := by
  rw [Reads, Reads, ruleLines_of_skipped h]

theorem reads_cons {line : Text} {rest : List Text} {entries : List Entry}
    (h : isSkipped line.chomp = false) : Reads (line :: rest) entries ↔
      ∃ e es, entries = e :: es ∧ readLine line.chomp.strip = .ok e ∧ Reads rest es := by
  rw [Reads, ruleLines_cons h, List.map_cons]
  constructor
  · intro hr
    cases entries with
    | nil => cases hr
    | cons e es =>
      obtain ⟨he, hes⟩ := List.cons.inj hr
      exact ⟨e, es, rfl, he, hes⟩
  · intro hsplit
    obtain ⟨e, es, rfl, he, hes⟩ := hsplit
    rw [he, List.map_cons, hes]

theorem readEntries_ok_iff {number limit : Nat} {lines : List Text} {entries : List Entry} :
    readEntries number limit lines = .ok entries ↔ Reads lines entries ∧ Nested limit entries := by
  induction lines generalizing number limit entries with
  | nil =>
    rw [reads_nil, readEntries, Except.ok.injEq]
    constructor
    · intro h
      subst h
      exact ⟨rfl, trivial⟩
    · intro h
      obtain ⟨rfl, -⟩ := h
      rfl
  | cons line rest ih =>
    cases hs : isSkipped line.chomp with
    | true =>
      rw [reads_of_skipped hs, readEntries, if_pos hs]
      exact ih
    | false =>
      rw [reads_cons hs, readEntries, if_neg (by simp [hs])]
      cases hl : readLine line.chomp.strip with
      | error f => simp
      | ok e =>
        by_cases hd : limit < e.depth
        · simp only [if_pos hd, reduceCtorEq, false_iff]
          intro h
          obtain ⟨⟨e', es, rfl, he, -⟩, hn⟩ := h
          cases he
          exact absurd hn.1 (Nat.not_le_of_lt hd)
        · simp only [if_neg hd, map_eq_ok_iff]
          constructor
          · intro h
            obtain ⟨es, hes, rfl⟩ := h
            obtain ⟨hr, hn⟩ := ih.mp hes
            exact ⟨⟨e, es, rfl, rfl, hr⟩, Nat.le_of_not_lt hd, hn⟩
          · intro h
            obtain ⟨⟨e', es, rfl, he, hr⟩, hn⟩ := h
            cases he
            exact ⟨es, ih.mpr ⟨hr, hn.2⟩, rfl⟩

/-- The first line that breaks the conditions, after lines that read and nest. -/
theorem readEntries_error {number limit : Nat} {lines : List Text} {fault : SourceFault}
    (h : readEntries number limit lines = .error fault) :
    ∃ before line after entries, lines = before ++ line :: after ∧ Reads before entries ∧
      Nested limit entries ∧ isSkipped line.chomp = false ∧
      Breaks limit entries line.chomp fault.reason ∧
      fault.number = number + before.length ∧ fault.line = line.chomp := by
  induction lines generalizing number limit with
  | nil => cases h
  | cons line rest ih =>
    cases hs : isSkipped line.chomp with
    | true =>
      rw [readEntries, if_pos hs] at h
      obtain ⟨before, bad, after, entries, rfl, hr, hn, hb, hbr, hnum, hline⟩ := ih h
      refine ⟨line :: before, bad, after, entries, rfl, (reads_of_skipped hs).mpr hr, hn, hb,
        hbr, ?_, hline⟩
      rw [hnum, List.length_cons]; omega
    | false =>
      rw [readEntries, if_neg (by simp [hs])] at h
      cases hl : readLine line.chomp.strip with
      | error f =>
        simp only [hl, Except.error.injEq] at h
        subst h
        exact ⟨[], line, rest, [], rfl, reads_nil.mpr rfl, trivial, hs, .fault hl, rfl, rfl⟩
      | ok e =>
        simp only [hl] at h
        by_cases hd : limit < e.depth
        · rw [if_pos hd, Except.error.injEq] at h
          subst h
          have hno : ¬ Nested limit ([] ++ [e]) := fun hn => Nat.not_le_of_lt hd hn.1
          exact ⟨[], line, rest, [], rfl, reads_nil.mpr rfl, trivial, hs, .orphan hl hno, rfl, rfl⟩
        · rw [if_neg hd, map_eq_error_iff] at h
          obtain ⟨before, bad, after, entries, rfl, hr, hn, hb, hbr, hnum, hline⟩ := ih h
          refine ⟨line :: before, bad, after, e :: entries, rfl,
            (reads_cons hs).mpr ⟨e, entries, rfl, hl, hr⟩, ⟨Nat.le_of_not_lt hd, hn⟩, hb, ?_, ?_,
            hline⟩
          · exact (Breaks.cons_iff (Nat.le_of_not_lt hd)).mpr hbr
          · rw [hnum, List.length_cons]; omega

/-- What comes before the first line that breaks the conditions is read without a fault; what
comes after it is never looked at. -/
theorem readEntries_of_breaks {number limit : Nat} {before : List Text} {line : Text}
    (after : List Text) {entries : List Entry} {reason : LineFault} (hr : Reads before entries)
    (hn : Nested limit entries) (hs : isSkipped line.chomp = false)
    (hb : Breaks limit entries line.chomp reason) :
    readEntries number limit (before ++ line :: after) =
      .error ⟨number + before.length, line.chomp, reason⟩ := by
  induction before generalizing number limit entries with
  | nil =>
    cases reads_nil.mp hr
    rw [List.nil_append, readEntries, if_neg (by simp [hs])]
    rcases hb with hl | ⟨hl, hno⟩
    · simp [hl]
    · have hd : limit < _ := Nat.lt_of_not_le fun hle => hno ⟨hle, trivial⟩
      simp [hl, hd]
  | cons first before ih =>
    rw [List.cons_append, List.length_cons, readEntries]
    cases hf : isSkipped first.chomp with
    | true =>
      rw [if_pos rfl, ih ((reads_of_skipped hf).mp hr) hn hb]
      simp only [Except.error.injEq, SourceFault.mk.injEq, and_true]
      omega
    | false =>
      obtain ⟨e, es, rfl, he, hes⟩ := (reads_cons hf).mp hr
      rw [if_neg (by simp), he]
      simp only [if_neg (Nat.not_lt_of_le hn.1)]
      rw [ih hes hn.2 ((Breaks.cons_iff hn.1).mp hb), Except.map]
      simp only [Except.error.injEq, SourceFault.mk.injEq, and_true]
      omega

theorem compileLines_eq_ok_iff {lines : List Text} {rules : List Rule} :
    compileLines lines = .ok rules ↔ Reads lines (toEntries rules) := by
  rw [compileLines, map_eq_ok_iff]
  constructor
  · intro h
    obtain ⟨entries, he, rfl⟩ := h
    obtain ⟨hr, hn⟩ := readEntries_ok_iff.mp he
    rwa [toEntries_ofEntries hn]
  · intro hr
    exact ⟨toEntries rules, readEntries_ok_iff.mpr ⟨hr, nested_toEntries rules⟩,
      ofEntries_toEntries rules⟩

/-- Lines have one sequence of entries at most. -/
theorem Reads.unique {lines : List Text} {entries entries' : List Entry}
    (h : Reads lines entries) (h' : Reads lines entries') : entries = entries' :=
  (List.map_inj_right fun _ _ he => Except.ok.inj he).mp (h.symm.trans h')

/-- Compiling gives the forest that lists the rules of the lines, or reports the first line that
is no rule or leaves a level out. -/
theorem compileLines_forest_or_first_fault (lines : List Text) :
    ((∃ rules, compileLines lines = .ok rules) ↔
      ∃ entries, Reads lines entries ∧ Nested 0 entries) ∧
    (∀ rules entries, compileLines lines = .ok rules → Reads lines entries →
      ∀ rules', toEntries rules' = entries ↔ rules' = rules) ∧
    (∀ fault, compileLines lines = .error fault ↔
      ∃ before line after entries, lines = before ++ line :: after ∧ Reads before entries ∧
        Nested 0 entries ∧ isSkipped line.chomp = false ∧
        Breaks 0 entries line.chomp fault.reason ∧
        fault.number = before.length + 1 ∧ fault.line = line.chomp) := by
  refine ⟨⟨?_, ?_⟩, ?_, ?_⟩
  · intro h
    obtain ⟨rules, h⟩ := h
    exact ⟨toEntries rules, compileLines_eq_ok_iff.mp h, nested_toEntries rules⟩
  · intro hentries
    obtain ⟨entries, hr, hn⟩ := hentries
    refine ⟨ofEntries entries, compileLines_eq_ok_iff.mpr ?_⟩
    rwa [toEntries_ofEntries hn]
  · intro rules entries h hr rules'
    obtain rfl := (compileLines_eq_ok_iff.mp h).unique hr
    exact ⟨toEntries_injective, fun he => congrArg toEntries he⟩
  · intro fault
    rw [compileLines, map_eq_error_iff]
    constructor
    · intro h
      obtain ⟨before, line, after, entries, hl, hr, hn, hs, hb, hnum, hline⟩ := readEntries_error h
      exact ⟨before, line, after, entries, hl, hr, hn, hs, hb, by rw [hnum, Nat.add_comm], hline⟩
    · intro hfault
      obtain ⟨before, line, after, entries, rfl, hr, hn, hs, hb, hnum, hline⟩ := hfault
      rw [readEntries_of_breaks after hr hn hs hb, Nat.add_comm, ← hnum, ← hline]

end FileMagic.RuleText
