import FileMagic.Proofs.Compile

/-! # Rules under another engine

An engine of regular expressions is asked for the expressions of a rule text and for nothing else.
So what one engine compiles, another engine that accepts its expressions compiles to the same
rules, with expressions of its own (`compileLines_recompile`). What does not depend on expressions
can be read off the rules that an engine compiles which accepts everything (`lenient`). -/

namespace FileMagic

/-- The engine whose expressions are never found. -/
abbrev RegexEngine.lenient : RegexEngine := ⟨fun _ _ => some ⟨fun _ => none⟩⟩

namespace Test

/-- The expression of a test that has had one compiled, with its flag. -/
def expression? : Test → Option (Bool × Bytes)
  | .regex t => t.pattern.map fun _ => (t.extender.fold, t.source.utf8)
  | _ => none

section
variable [RegexEngine]

/-- The test with its expression compiled anew. -/
def recompile : Test → Test
  | .regex t => .regex { t with
      pattern := t.pattern.bind fun _ => RegexEngine.compile? t.extender.fold t.source.utf8 }
  | t => t

/-- The engine accepts the expression of the test. -/
def IsAccepted (t : Test) : Prop :=
  ∀ x ∈ t.expression?, (RegexEngine.compile? x.1 x.2).isSome = true

theorem recompile_of_expression? {t : Test} (h : t.expression? = none) : t.recompile = t := by
  cases t with
  | regex t =>
    obtain ⟨offset, o, source, extender, pattern⟩ := t
    obtain rfl : pattern = none := Option.map_eq_none_iff.mp h
    rfl
  | _ => rfl

end
end Test

theorem RegexTest.make_recompile {other : RegexEngine} [RegexEngine] {offset : Offset}
    {o : Operator} {source extender : Text} {t : RegexTest}
    (h : @make other offset o source extender = .ok t) (ha : (Test.regex t).IsAccepted) :
    (Test.regex <$> make offset o source extender) = .ok (Test.regex t).recompile := by
  obtain ⟨ext, hext, h⟩ := bind_eq_ok_iff.mp h
  have hmake : make offset o source extender = _ := congrArg (· >>= _) hext
  rw [hmake, ok_bind]
  by_cases hany : o = .any
  · rw [if_pos hany] at h ⊢
    cases h
    rfl
  · rw [if_neg hany] at h ⊢
    cases hother : @RegexEngine.compile? other ext.fold source.utf8 with
    | none =>
      rw [hother] at h
      cases h
    | some r =>
      rw [hother] at h
      cases h
      obtain ⟨r', hcompile⟩ := Option.isSome_iff_exists.mp (ha _ rfl)
      simp only [Test.recompile, Option.bind_some]
      rw [hcompile]
      rfl

/-! ## Lines -/

namespace Entry
variable [RegexEngine]

def recompile (e : Entry) : Entry := { e with test := e.test.recompile }

end Entry

namespace RuleText

variable {other : RegexEngine} [RegexEngine]

theorem buildTest_recompile {offset : Offset} {type : TypeText} {o : Operator}
    {value : Option Text} {t : Test} (h : @buildTest other offset type o value = .ok t)
    (ha : t.IsAccepted) : buildTest offset type o value = .ok t.recompile := by
  cases htype : type.type with
  | regex =>
    simp only [buildTest, htype] at h ⊢
    obtain ⟨regex, hmake, rfl⟩ := map_eq_ok_iff.mp h
    exact RegexTest.make_recompile hmake ha
  | integer width | date scale isLocal =>
    simp only [buildTest, htype] at h ⊢
    rw [h]
    obtain ⟨n, -, h⟩ := bind_eq_ok_iff.mp h
    cases h
    rfl
  | real real =>
    simp only [buildTest, htype] at h ⊢
    rw [h]
    obtain ⟨d, -, h⟩ := bind_eq_ok_iff.mp h
    obtain ⟨test, -, rfl⟩ := map_eq_ok_iff.mp h
    rfl
  | string | guid | default | unsupported keyword =>
    simp only [buildTest, htype] at h ⊢
    cases h
    rfl

theorem readTest_recompile {offset : Offset} {typeText valueText : Text} {t : Test}
    (h : @readTest other offset typeText valueText = .ok t) (ha : t.IsAccepted) :
    readTest offset typeText valueText = .ok t.recompile := by
  obtain ⟨type, htype, h⟩ := bind_eq_ok_iff.mp h
  rw [readTest, htype, ok_bind]
  split at h
  · rw [h]
    split at h <;> cases h
    rfl
  · rw [h]
    split at h <;> cases h
    rfl
  · obtain ⟨⟨o, value⟩, hvalue, h⟩ := bind_eq_ok_iff.mp h
    rw [hvalue, ok_bind]
    exact buildTest_recompile h ha

theorem readLine_recompile {line : Text} {e : Entry} (h : @readLine other line = .ok e)
    (ha : e.test.IsAccepted) : readLine line = .ok e.recompile := by
  unfold readLine at h ⊢
  split at h
  · next offsetText typeText valueText message hwords =>
    obtain ⟨offset, hoffset, h⟩ := bind_eq_ok_iff.mp h
    obtain ⟨test, htest, h⟩ := bind_eq_ok_iff.mp h
    cases h
    rw [hoffset, ok_bind, readTest_recompile htest ha]
    rfl
  · cases h

theorem reads_recompile {lines : List Text} {entries : List Entry}
    (h : @Reads other lines entries) (ha : ∀ e ∈ entries, e.test.IsAccepted) :
    Reads lines (entries.map Entry.recompile) := by
  unfold Reads at h ⊢
  generalize ruleLines lines = kept at h ⊢
  induction kept generalizing entries with
  | nil =>
    obtain rfl : entries = [] := List.map_eq_nil_iff.mp h.symm
    rfl
  | cons line rest ih =>
    cases entries with
    | nil => cases h
    | cons e es =>
      obtain ⟨he, hes⟩ := List.cons.inj h
      have hline := readLine_recompile he (ha e List.mem_cons_self)
      have hrest := ih (fun e he => ha e (List.mem_cons_of_mem _ he)) hes
      rw [List.map_cons, hline, hrest]
      rfl

end RuleText

/-! ## Trees -/

namespace Rule
variable [RegexEngine]

mutual

def recompile : Rule → Rule
  | ⟨test, message, children⟩ => ⟨test.recompile, message, recompileAll children⟩

def recompileAll : List Rule → List Rule
  | [] => []
  | r :: rest => r.recompile :: recompileAll rest

end

theorem recompileAll_eq_map (rules : List Rule) : recompileAll rules = rules.map recompile := by
  induction rules with
  | nil => rfl
  | cons r rest ih => rw [recompileAll, ih, List.map_cons]

theorem children_recompile (r : Rule) : r.recompile.children = r.children.map recompile := by
  obtain ⟨test, message, children⟩ := r
  exact recompileAll_eq_map children

end Rule

namespace Forest
variable [RegexEngine]

mutual

theorem entriesAt_recompile (depth : Nat) :
    ∀ r : Rule, entriesAt depth r.recompile = (entriesAt depth r).map Entry.recompile
  | ⟨test, message, children⟩ => by
    rw [Rule.recompile, entriesAt, entriesAt, entriesBelow_recompile, List.map_cons]
    rfl

theorem entriesBelow_recompile (depth : Nat) : ∀ rules : List Rule,
    entriesBelow depth (Rule.recompileAll rules) = (entriesBelow depth rules).map Entry.recompile
  | [] => rfl
  | r :: rest => by
    rw [Rule.recompileAll, entriesBelow, entriesBelow, entriesAt_recompile, entriesBelow_recompile,
      List.map_append]

end

theorem toEntries_recompile (rules : List Rule) :
    toEntries (rules.map Rule.recompile) = (toEntries rules).map Entry.recompile :=
  Rule.recompileAll_eq_map rules ▸ entriesBelow_recompile 0 rules

end Forest

/-- What one engine compiles, another one that accepts the expressions in it compiles to the same
rules but for these. -/
theorem RuleText.compileLines_recompile {other : RegexEngine} [RegexEngine] {lines : List Text}
    {rules : List Rule} (h : @compileLines other lines = .ok rules)
    (ha : ∀ e ∈ Forest.toEntries rules, e.test.IsAccepted) :
    compileLines lines = .ok (rules.map Rule.recompile) := by
  refine compileLines_eq_ok_iff.mpr ?_
  rw [Forest.toEntries_recompile]
  exact reads_recompile ((@compileLines_eq_ok_iff other lines rules).mp h) ha

/-- Rules without expressions are the same under every engine. -/
theorem RuleText.compileLines_of_no_expression {other : RegexEngine} [RegexEngine]
    {lines : List Text} {rules : List Rule} (h : @compileLines other lines = .ok rules)
    (hnone : (Forest.toEntries rules).all (·.test.expression?.isNone) = true) :
    compileLines lines = .ok rules := by
  have hall : ∀ e ∈ Forest.toEntries rules, e.test.expression? = none := by
    intro e he
    simpa using List.all_eq_true.mp hnone e he
  have hsame : rules.map Rule.recompile = rules := by
    refine Forest.toEntries_injective ?_
    rw [Forest.toEntries_recompile]
    refine List.map_congr_left (fun e he => ?_) |>.trans (List.map_id _)
    rw [Entry.recompile, e.test.recompile_of_expression? (hall e he)]
    rfl
  rw [compileLines_recompile h fun e he x hx => ?_, hsame]
  rw [hall e he] at hx
  cases hx

end FileMagic
