import FileMagic.Pattern.Engine
import FileMagic.Proofs.FileText
import FileMagic.Proofs.Inert

/-! # Deleting a rule from a text

A rule is deleted from a text together with the rules below it, which are the deeper ones among
those that follow, up to the first that is not. Every other line stays as it is, with the boundary
that ends it. Where a carriage return comes to stand before a line feed, the two become one
boundary; an empty line is lost then, but no rule (`ruleLines_lines_joinEnded`). If the rule that
is deleted is never evaluated, the text still compiles, and its rules describe every content as
before (`compile_deleteRule`). -/

namespace FileMagic

namespace Text

/-- The lines of a text, each with the boundary that ends it. -/
def endedLines : Text → List (Text × Text)
  | [] => []
  | '\r' :: '\n' :: rest => ([], ['\r', '\n']) :: endedLines rest
  | c :: rest =>
    if isLineBreak c then ([], [c]) :: endedLines rest
    else match endedLines rest with
      | [] => [([c], [])]
      | (l, e) :: ls => (c :: l, e) :: ls

def joinEnded (ls : List (Text × Text)) : Text := ls.flatMap fun l => l.1 ++ l.2

/-- What ends a line. -/
inductive IsEnd : Text → Prop
  | pair : IsEnd ['\r', '\n']
  | single {c : Char} : isLineBreak c = true → IsEnd [c]

/-- Lines with their ends, which none but the last can be without. -/
structure AreEnded (ls : List (Text × Text)) : Prop where
  unbroken : ∀ l ∈ ls, ∀ c ∈ l.1, isLineBreak c = false
  ends : ∀ l ∈ ls, l.2 ≠ [] → IsEnd l.2
  inner : ls.Pairwise fun l _ => l.2 ≠ []

theorem areEnded_nil : AreEnded [] := ⟨by simp, by simp, .nil⟩

theorem AreEnded.sublist {ls kept : List (Text × Text)} (h : AreEnded ls) (hk : kept.Sublist ls) :
    AreEnded kept :=
  ⟨fun l hl => h.unbroken l (hk.subset hl), fun l hl => h.ends l (hk.subset hl), h.inner.sublist hk⟩

theorem IsEnd.ne_nil {e : Text} (h : IsEnd e) : e ≠ [] := by
  cases h <;> exact List.cons_ne_nil _ _

theorem AreEnded.cons {ls : List (Text × Text)} (h : AreEnded ls) {e : Text} (he : IsEnd e) :
    AreEnded (([], e) :: ls) where
  unbroken := List.forall_mem_cons.mpr ⟨List.forall_mem_nil _, h.unbroken⟩
  ends := List.forall_mem_cons.mpr ⟨fun _ => he, h.ends⟩
  inner := List.pairwise_cons.mpr ⟨fun _ _ => he.ne_nil, h.inner⟩

theorem AreEnded.extend {c : Char} (hc : isLineBreak c = false) {l e : Text}
    {ls : List (Text × Text)} (h : AreEnded ((l, e) :: ls)) : AreEnded ((c :: l, e) :: ls) := by
  obtain ⟨hl, hls⟩ := List.forall_mem_cons.mp h.unbroken
  obtain ⟨he, hes⟩ := List.forall_mem_cons.mp h.ends
  refine ⟨List.forall_mem_cons.mpr ⟨List.forall_mem_cons.mpr ⟨hc, hl⟩, hls⟩,
    List.forall_mem_cons.mpr ⟨he, hes⟩, ?_⟩
  exact List.pairwise_cons.mpr (List.pairwise_cons.mp h.inner)

/-- The lines are those of the text, and nothing of the text is lost. -/
theorem endedLines_spec (t : Text) :
    t.endedLines.map Prod.fst = t.lines ∧ joinEnded t.endedLines = t ∧ AreEnded t.endedLines := by
  induction t using unifyNewlines.induct with
  | case1 => exact ⟨rfl, rfl, areEnded_nil⟩
  | case2 rest ih =>
    obtain ⟨hl, hj, he⟩ := ih
    exact ⟨congrArg ([] :: ·) hl, congrArg (['\r', '\n'] ++ ·) hj, he.cons .pair⟩
  | case3 c rest hpair ih =>
    obtain ⟨hl, hj, he⟩ := ih
    rw [endedLines.eq_3 _ _ hpair]
    cases hb : isLineBreak c with
    | true =>
      have hlines : lines (c :: rest) = [] :: lines rest := by rw [lines.eq_3 _ _ hpair, if_pos hb]
      rw [if_pos rfl, hlines]
      exact ⟨congrArg ([] :: ·) hl, congrArg (c :: ·) hj, he.cons (.single hb)⟩
    | false =>
      rw [if_neg Bool.false_ne_true, lines_char hb, ← hl]
      cases hrest : endedLines rest with
      | nil =>
        rw [hrest] at hj
        obtain rfl : [] = rest := hj
        refine ⟨rfl, rfl, ?_, ?_, List.pairwise_singleton _ _⟩
        · simpa using hb
        · simp
      | cons l ls =>
        rw [hrest] at hj he
        exact ⟨rfl, congrArg (c :: ·) hj, he.extend hb⟩

/-- A line goes on up to the first boundary. -/
theorem lines_append {l t : Text} {rest : List Text} (hl : ∀ c ∈ l, isLineBreak c = false)
    (ht : lines t = [] :: rest) : lines (l ++ t) = l :: rest := by
  induction l with
  | nil => exact ht
  | cons c l ih =>
    obtain ⟨hc, hrest⟩ := List.forall_mem_cons.mp hl
    rw [List.cons_append, lines_char hc, ih hrest]

theorem lines_unbroken {l : Text} (hl : ∀ c ∈ l, isLineBreak c = false) (hne : l ≠ []) :
    lines l = [l] := by
  induction l with
  | nil => exact absurd rfl hne
  | cons c l ih =>
    obtain ⟨hc, hrest⟩ := List.forall_mem_cons.mp hl
    rw [lines_char hc]
    cases l with
    | nil => rfl
    | cons d l => rw [ih hrest (List.cons_ne_nil d l)]

end Text

namespace RuleText
open Forest Text

/-! ## Rule lines -/

theorem ruleLines_append (ls more : List Text) :
    ruleLines (ls ++ more) = ruleLines ls ++ ruleLines more := by
  rw [ruleLines, ruleLines, ruleLines, List.map_append, List.filter_append]

theorem ruleLines_empty (ls : List Text) : ruleLines ([] :: ls) = ruleLines ls :=
  ruleLines_of_skipped rfl ls

/-- A carriage return can become one boundary with what follows. -/
theorem ruleLines_lines_end {e : Text} (he : IsEnd e) (t : Text) :
    ∃ rest, lines (e ++ t) = [] :: rest ∧ ruleLines rest = ruleLines (lines t) := by
  cases he with
  | pair => exact ⟨lines t, rfl, rfl⟩
  | @single c hc =>
    by_cases hpair : c = '\r' ∧ t.head? = some '\n'
    · obtain ⟨rfl, hhead⟩ := hpair
      obtain ⟨t', rfl⟩ := List.head?_eq_some_iff.mp hhead
      exact ⟨lines t', rfl, (ruleLines_empty (lines t')).symm⟩
    · exact ⟨lines t, lines_break hc fun hcr hhead => hpair ⟨hcr, hhead⟩, rfl⟩

theorem ruleLines_lines_unbroken {l : Text} (hl : ∀ c ∈ l, isLineBreak c = false) :
    ruleLines (lines l) = ruleLines [l] := by
  by_cases hne : l = []
  · subst hne
    exact (ruleLines_empty []).symm
  · rw [lines_unbroken hl hne]

/-- Lines put together have the rules that they have one by one. -/
theorem ruleLines_lines_joinEnded {ls : List (Text × Text)} (h : AreEnded ls) :
    ruleLines (lines (joinEnded ls)) = ruleLines (ls.map Prod.fst) := by
  induction ls with
  | nil => rfl
  | cons l ls ih =>
    have htail := ih (h.sublist (List.sublist_cons_self l ls))
    have hl := h.unbroken l (List.mem_cons_self ..)
    have hjoin : joinEnded (l :: ls) = l.1 ++ (l.2 ++ joinEnded ls) := by
      rw [joinEnded, List.flatMap_cons, List.append_assoc]
      rfl
    by_cases hend : l.2 = []
    · have hlast : ls = [] := by
        cases ls with
        | nil => rfl
        | cons next ls =>
          exact absurd hend ((List.pairwise_cons.mp h.inner).1 next (List.mem_cons_self ..))
      subst hlast
      rw [hjoin, hend]
      exact (congrArg (ruleLines ∘ lines) (List.append_nil l.1)).trans (ruleLines_lines_unbroken hl)
    · obtain ⟨rest, hlines, hrest⟩ :=
        ruleLines_lines_end (h.ends l (List.mem_cons_self ..) hend) (joinEnded ls)
      rw [hjoin, lines_append hl hlines, List.map_cons, ← List.singleton_append, ruleLines_append,
        hrest, htail, ← ruleLines_append]
      rfl

section
variable [RegexEngine]

/-- The entry of a line, if it is a rule. -/
def entryOf (line : Text) : Option Entry :=
  if isSkipped line.chomp then none else (readLine line.chomp.strip).toOption

/-- A line that has to be a rule is one. -/
def IsReadable (line : Text) : Prop :=
  isSkipped line.chomp = false → ∃ e, readLine line.chomp.strip = .ok e

theorem reads_iff {ls : List Text} {entries : List Entry} :
    Reads ls entries ↔ (∀ line ∈ ls, IsReadable line) ∧ ls.filterMap entryOf = entries := by
  induction ls generalizing entries with
  | nil => rw [reads_nil]; exact ⟨fun h => ⟨nofun, h.symm⟩, fun h => h.2.symm⟩
  | cons line rest ih =>
    rw [List.forall_mem_cons]
    cases hs : isSkipped line.chomp with
    | true =>
      have hreadable : IsReadable line := fun h => absurd (hs.symm.trans h) nofun
      have hentry : entryOf line = none := if_pos hs
      rw [reads_of_skipped hs, ih, List.filterMap_cons_none hentry]
      simp only [hreadable, true_and]
    | false =>
      rw [reads_cons hs]
      constructor
      · intro h
        obtain ⟨e, es, rfl, he, hes⟩ := h
        obtain ⟨hreadable, rfl⟩ := ih.mp hes
        have hentry : entryOf line = some e := by
          rw [entryOf, if_neg (by simp [hs]), he]
          rfl
        exact ⟨⟨fun _ => ⟨e, he⟩, hreadable⟩, List.filterMap_cons_some hentry⟩
      · intro h
        obtain ⟨⟨hline, hrest⟩, rfl⟩ := h
        obtain ⟨e, he⟩ := hline hs
        have hentry : entryOf line = some e := by
          rw [entryOf, if_neg (by simp [hs]), he]
          rfl
        exact ⟨e, rest.filterMap entryOf, List.filterMap_cons_some hentry, he, ih.mpr ⟨hrest, rfl⟩⟩

/-! ## Deletion -/

/-- Lines without the rules deeper than `depth`, up to the first rule that is not. -/
def dropBelow (depth : Nat) : List (Text × Text) → List (Text × Text)
  | [] => []
  | l :: rest =>
    match entryOf l.1 with
    | none => l :: dropBelow depth rest
    | some e => if depth < e.depth then dropBelow depth rest else l :: rest

/-- A text without the rule in the line at `index` and the rules below it. -/
def deleteRule (text : Text) (index : Nat) : Text :=
  match text.endedLines[index]?.bind fun l => entryOf l.1 with
  | none => text
  | some e =>
    joinEnded (text.endedLines.take index ++ dropBelow e.depth (text.endedLines.drop (index + 1)))

theorem dropBelow_sublist (depth : Nat) (ls : List (Text × Text)) :
    (dropBelow depth ls).Sublist ls := by
  induction ls with
  | nil => exact List.Sublist.refl []
  | cons l rest ih =>
    rw [dropBelow]
    split
    · exact ih.cons_cons l
    · split
      · exact ih.cons l
      · exact List.Sublist.refl _

theorem filterMap_dropBelow (depth : Nat) (ls : List (Text × Text)) :
    ((dropBelow depth ls).map Prod.fst).filterMap entryOf =
      ((ls.map Prod.fst).filterMap entryOf).dropWhile fun x => depth < x.depth := by
  induction ls with
  | nil => rfl
  | cons l rest ih =>
    rw [dropBelow, List.map_cons]
    cases he : entryOf l.1 with
    | none =>
      rw [List.filterMap_cons_none he, List.map_cons, List.filterMap_cons_none he, ih]
    | some e =>
      rw [List.filterMap_cons_some he]
      by_cases hd : depth < e.depth
      · rw [List.dropWhile_cons_of_pos (by simpa using hd)]
        simp only [if_pos hd, ih]
      · rw [List.dropWhile_cons_of_neg (by simpa using hd)]
        simp only [if_neg hd, List.map_cons, List.filterMap_cons_some he]

/-- Some of the lines of a text have the rules among them that they have in the text. -/
theorem reads_joinEnded {text : Text} {entries : List Entry} (h : Reads text.lines entries)
    {kept : List (Text × Text)} (hk : kept.Sublist text.endedLines) :
    Reads (joinEnded kept).lines ((kept.map Prod.fst).filterMap entryOf) := by
  obtain ⟨hlines, -, hended⟩ := endedLines_spec text
  have hreadable : ∀ line ∈ kept.map Prod.fst, IsReadable line := by
    intro line hline
    refine (reads_iff.mp h).1 line ?_
    rw [← hlines]
    exact (hk.map Prod.fst).subset hline
  rw [Reads, ruleLines_lines_joinEnded (hended.sublist hk)]
  exact reads_iff.mpr ⟨hreadable, rfl⟩

/-- What is left are the rules before the one that is deleted, and those after it from the first
on that is no deeper. -/
theorem reads_deleteRule {text : Text} {entries : List Entry} (h : Reads text.lines entries)
    {index : Nat} {line : Text} {e : Entry} (hline : text.lines[index]? = some line)
    (he : entryOf line = some e) :
    ∃ before after, entries = before ++ e :: after ∧
      Reads (deleteRule text index).lines
        (before ++ after.dropWhile fun x => e.depth < x.depth) := by
  obtain ⟨hlines, -, -⟩ := endedLines_spec text
  rw [← hlines, List.getElem?_map, Option.map_eq_some_iff] at hline
  obtain ⟨l, hl, rfl⟩ := hline
  obtain ⟨hlt, hget⟩ := List.getElem?_eq_some_iff.mp hl
  have hsplit : text.endedLines =
      text.endedLines.take index ++ l :: text.endedLines.drop (index + 1) := by
    rw [← hget, ← List.drop_eq_getElem_cons hlt, List.take_append_drop]
  have hdelete : deleteRule text index = joinEnded (text.endedLines.take index ++
      dropBelow e.depth (text.endedLines.drop (index + 1))) := by
    simp only [deleteRule, hl, Option.bind_some, he]
  have hkept : (text.endedLines.take index ++
      dropBelow e.depth (text.endedLines.drop (index + 1))).Sublist text.endedLines := by
    conv_rhs => rw [hsplit]
    exact (List.Sublist.refl _).append ((dropBelow_sublist ..).cons l)
  have hrest := reads_joinEnded h hkept
  rw [← hdelete, List.map_append, List.filterMap_append, filterMap_dropBelow] at hrest
  refine ⟨_, _, ?_, hrest⟩
  rw [← (reads_iff.mp h).2, ← hlines]
  conv_lhs => rw [hsplit]
  rw [List.map_append, List.filterMap_append, List.map_cons, List.filterMap_cons_some he]

/-- Deleting a rule that is never evaluated leaves a text that compiles, and rules that describe
every content as before. -/
theorem compile_deleteRule {text : Text} {rules : List Rule} (h : compile text = .ok rules)
    {index : Nat} {line : Text} {e : Entry} (hline : text.lines[index]? = some line)
    (he : entryOf line = some e) (hinert : e.test.isInert = true) :
    ∃ rules' before after, compile (deleteRule text index) = .ok rules' ∧
      toEntries rules = before ++ e :: after ∧
      toEntries rules' = before ++ after.dropWhile (fun x => e.depth < x.depth) ∧
      ∀ s, (Database.mk rules').matching s = (Database.mk rules).matching s ∧
        (Database.mk rules').probe s = (Database.mk rules).probe s := by
  obtain ⟨before, after, hentries, hrest⟩ :=
    reads_deleteRule (compileLines_eq_ok_iff.mp h) hline he
  have hnested := nested_toEntries rules
  rw [hentries] at hnested
  have hlisted := toEntries_ofEntries hnested.without
  rw [← hlisted] at hrest
  refine ⟨_, before, after, compileLines_eq_ok_iff.mpr hrest, hentries, hlisted, fun s => ?_⟩
  have hmatching := Scan.matching_eq_run_toEntries ⟨rules⟩ s
  rw [hentries, ← Scan.run_without hnested hinert, ← hlisted,
    ← Scan.matching_eq_run_toEntries ⟨ofEntries _⟩] at hmatching
  exact ⟨hmatching.symm, by rw [Database.probe, Database.probe, hmatching]⟩

end

/-- A rule whose deletion joins two boundaries, with a comment among the rules below it. -/
theorem compile_deleteRule_search :
    ∃ (text : Text) (rules rules' : List Rule) (line : Text) (e : Entry),
      compile text = .ok rules ∧ text.lines[1]? = some line ∧ entryOf line = some e ∧
      e.test.isInert = true ∧ text =
        "0 byte 1 one\r>1 search/8 abc\n\n>>2 byte x\n# none\n>1 default x other".toList ∧
      deleteRule text 1 = "0 byte 1 one\r\n# none\n>1 default x other".toList ∧
      compile (deleteRule text 1) = .ok rules' ∧
      (Database.mk rules').matching (.ofBytes [1]) = (Database.mk rules).matching (.ofBytes [1]) ∧
      (Database.mk rules').matching (.ofBytes [1]) =
        .ok (some ["one".toList, "other".toList]) := by
  let text : Text :=
    "0 byte 1 one\r>1 search/8 abc\n\n>>2 byte x\n# none\n>1 default x other".toList
  let e : Entry := ⟨1, .unsupported "search".toList (.fixed 1) "abc".toList, []⟩
  have h : compile text = .ok
      [⟨.integer ⟨.fixed 0, .byte, true, .native, .equal, some 1⟩, "one".toList,
        [⟨e.test, e.message, [⟨.integer ⟨.fixed 2, .byte, true, .native, .any, none⟩, [], []⟩]⟩,
          ⟨.fallback (.fixed 1), "other".toList, []⟩]⟩] := rfl
  have hline : text.lines[1]? = some ">1 search/8 abc".toList := rfl
  have he : entryOf ">1 search/8 abc".toList = some e := rfl
  obtain ⟨rules', -, -, hcompile, -, -, hsame⟩ := compile_deleteRule h hline he rfl
  obtain ⟨hmatching, -⟩ := hsame (.ofBytes [1])
  exact ⟨text, _, rules', _, e, h, hline, he, rfl, rfl, rfl, hcompile, hmatching,
    hmatching.trans rfl⟩

end RuleText
end FileMagic
