import FileMagic.Proofs.Due
import FileMagic.Proofs.Operand

/-! # When a database has no answer

A pass ends with the first entry it evaluates to a fault. For the rules of a text and content
in memory that is a test which does not accept its operator, or one which strains: so a
database answers or refuses an operator exactly as long as no test that is reached strains
(`answers_or_refuses_iff`). Tests do strain: pointers of eight octets lead beyond the bound of
positions, and messages can ask for widths and precisions that cannot be had. -/

namespace FileMagic.Scan

variable {s : Stream}

/-- The pass comes to an entry and evaluates it. -/
def Reaches (s : Stream) (entries : List Entry) (e : Entry) : Prop :=
  ∃ before after σ, entries = before ++ e :: after ∧ before.foldlM (step s) start = .ok σ ∧
    Due s before e

theorem step_eq_error_iff {σ : Scan} {e : Entry} {before : List Entry} {f : ProbeFault}
    (hσ : before.foldlM (step s) start = .ok σ) :
    step s σ e = .error f ↔ Due s before e ∧ e.test.evaluate s e.message = .error f := by
  rw [← isDue_iff hσ]
  cases hdue : σ.isDue e with
  | false => simp [step_of_not_due hdue]
  | true => rw [step_of_due hdue, map_eq_error_iff, and_iff_right rfl]

/-- A pass fails as the first entry does that is evaluated to a fault. -/
theorem run_eq_error_iff {entries : List Entry} {f : ProbeFault} :
    run s entries = .error f ↔ ∃ before e after σ, entries = before ++ e :: after ∧
      before.foldlM (step s) start = .ok σ ∧ Due s before e ∧
      e.test.evaluate s e.message = .error f := by
  rw [run, map_eq_error_iff, foldlM_eq_error_iff]
  constructor
  · intro h
    obtain ⟨before, e, after, σ, heq, hσ, hstep⟩ := h
    exact ⟨before, e, after, σ, heq, hσ, (step_eq_error_iff hσ).mp hstep⟩
  · intro h
    obtain ⟨before, e, after, σ, heq, hσ, hstep⟩ := h
    exact ⟨before, e, after, σ, heq, hσ, (step_eq_error_iff hσ).mpr hstep⟩

/-- Nothing is reached after an entry that is evaluated to a fault. -/
theorem foldlM_past_fault {before : List Entry} {σ : Scan} {e : Entry} {f : ProbeFault}
    (hσ : before.foldlM (step s) start = .ok σ) (hf : step s σ e = .error f)
    (after : List Entry) : (before ++ e :: after).foldlM (step s) start = .error f := by
  rw [List.foldlM_append, hσ, ok_bind, List.foldlM_cons, hf, error_bind]

theorem eq_of_faults {entries : List Entry} {e e' : Entry} (h : Reaches s entries e)
    (h' : Reaches s entries e') (hf : Fails (e.test.evaluate s e.message))
    (hf' : Fails (e'.test.evaluate s e'.message)) : e = e' := by
  obtain ⟨before, after, σ, rfl, hσ, hdue⟩ := h
  obtain ⟨before', after', σ', heq, hσ', hdue'⟩ := h'
  obtain ⟨f, hf⟩ := hf
  obtain ⟨f', hf'⟩ := hf'
  have hstep := (step_eq_error_iff hσ).mpr ⟨hdue, hf⟩
  have hstep' := (step_eq_error_iff hσ').mpr ⟨hdue', hf'⟩
  rcases List.append_eq_append_iff.mp heq with ⟨mid, rfl, hmid⟩ | ⟨mid, rfl, hmid⟩
  · cases mid with
    | nil => exact (List.cons.inj hmid).1
    | cons x mid =>
      cases (List.cons.inj hmid).1
      rw [foldlM_past_fault hσ hstep mid] at hσ'
      cases hσ'
  · cases mid with
    | nil => exact (List.cons.inj hmid).1.symm
    | cons x mid =>
      cases (List.cons.inj hmid).1
      rw [foldlM_past_fault hσ' hstep' mid] at hσ
      cases hσ

/-- The report that a test of those that are selective does not accept its operator. -/
def Refusal (s : Stream) (entries : List Entry) (f : ProbeFault) : Prop :=
  ∃ e, Reaches s entries e ∧ e.test.isSelective = true ∧ e.test.operator ∉ e.test.operators ∧
    f = .operator e.test.operator e.test.kind

/-- An entry that is reached, and whose operator is accepted, strains. -/
def Strained (s : Stream) (entries : List Entry) : Prop :=
  ∃ e, Reaches s entries e ∧ e.test.operator ∈ e.test.operators ∧ e.test.Strains s e.message

/-- For entries whose tests have their operands. -/
theorem run_refuses_iff (hs : s.InMemory) {entries : List Entry}
    (hc : ∀ e ∈ entries, e.test.operator ∈ Operator.all ∧ e.test.Comparable) :
    (∀ f, run s entries = .error f → Refusal s entries f) ↔ ¬ Strained s entries := by
  have hmem : ∀ {e}, Reaches s entries e → e ∈ entries := by
    intro e h
    obtain ⟨before, after, -, rfl, -⟩ := h
    simp
  constructor
  · intro hrefuses hstrained
    obtain ⟨e, he, ho, hstrains⟩ := hstrained
    have hfails := (Test.evaluate_fails_iff hs ho (hc e (hmem he)).2).mpr hstrains
    obtain ⟨f, hf⟩ := hfails
    obtain ⟨before, after, σ, heq, hσ, hdue⟩ := id he
    have hrun := run_eq_error_iff.mpr ⟨before, e, after, σ, heq, hσ, hdue, hf⟩
    obtain ⟨e', he', -, ho', -⟩ := hrefuses f hrun
    have hf' : Fails (e'.test.evaluate s e'.message) := ⟨_, Test.evaluate_of_not_mem ho'⟩
    rw [eq_of_faults he he' ⟨f, hf⟩ hf'] at ho
    exact ho' ho
  · intro hstrained f hrun
    obtain ⟨before, e, after, σ, heq, hσ, hdue, hf⟩ := run_eq_error_iff.mp hrun
    have he : Reaches s entries e := ⟨before, after, σ, heq, hσ, hdue⟩
    obtain ⟨hall, hcomparable⟩ := hc e (hmem he)
    by_cases ho : e.test.operator ∈ e.test.operators
    · have hstrains := (Test.evaluate_fails_iff hs ho hcomparable).mp ⟨f, hf⟩
      exact absurd ⟨e, he, ho, hstrains⟩ hstrained
    · rw [Test.evaluate_of_not_mem ho, Except.error.injEq] at hf
      refine ⟨e, he, ?_, ho, hf.symm⟩
      cases hselective : e.test.isSelective with
      | true => rfl
      | false =>
        rw [Test.operators_of_not_isSelective hselective] at ho
        exact absurd hall ho

/-- The rules of a text answer or refuse an operator, whatever the content, as long as no test
that is reached strains. -/
theorem answers_or_refuses_iff [RegexEngine] {text : Text} {rules : List Rule}
    (h : RuleText.compile text = .ok rules) {content : Bytes}
    (hl : (content.length : Int) < Stream.positionLimit) :
    ((∀ f, (Database.mk rules).matching (.ofBytes content) = .error f →
        Refusal (.ofBytes content) (Forest.toEntries rules) f) ∧
      ∀ f, (Database.mk rules).probe (.ofBytes content) = .error f →
        Refusal (.ofBytes content) (Forest.toEntries rules) f) ↔
      ¬ Strained (.ofBytes content) (Forest.toEntries rules) := by
  have hreads := RuleText.compileLines_eq_ok_iff.mp h
  have hrun := run_refuses_iff (Stream.inMemory_ofBytes hl) fun e he => hreads.comparable he
  simp only [Database.probe, map_eq_error_iff, matching_eq_run_toEntries, and_self, hrun]

theorem answers_or_refuses_iff_at_start :
    ∃ rules, RuleText.compile "(0.q) byte x found".toList = .ok rules ∧
      ((List.replicate 8 0).length : Int) < Stream.positionLimit ∧
      ¬ Strained (.ofBytes (List.replicate 8 0)) (Forest.toEntries rules) := by
  have h : RuleText.compile "(0.q) byte x found".toList = .ok
      [⟨.integer ⟨.indirect 0 .quad .little false 0, .byte, true, .native, .any, none⟩,
        "found".toList, []⟩] := rfl
  have hl : ((List.replicate 8 (0 : UInt8)).length : Int) < Stream.positionLimit := by decide
  have hprobe : (Database.mk [⟨.integer ⟨.indirect 0 .quad .little false 0, .byte, true, .native,
      .any, none⟩, "found".toList, []⟩]).probe (.ofBytes (List.replicate 8 0)) =
        .ok "found".toList := by decide +kernel
  have hmatching := hprobe
  rw [Database.probe, map_eq_ok_iff] at hmatching
  obtain ⟨messages, hmatching, -⟩ := hmatching
  refine ⟨_, h, hl, (answers_or_refuses_iff h hl).mp ⟨fun f hf => ?_, fun f hf => ?_⟩⟩
  · rw [hmatching] at hf
    cases hf
  · rw [hprobe] at hf
    cases hf

/-- A pointer of eight octets that leads beyond the bound, and a precision beyond any. -/
theorem strained_by_far_pointer :
    ∃ rules rules',
      RuleText.compile "(0.q) byte x found".toList = .ok rules ∧
      (Database.mk rules).probe (.ofBytes (List.replicate 8 255)) = .error (.read .overflow) ∧
      ¬ Refusal (.ofBytes (List.replicate 8 255)) (Forest.toEntries rules) (.read .overflow) ∧
      RuleText.compile "0 string x [%.99999999999999999999s]".toList = .ok rules' ∧
      (Database.mk rules').probe (.ofBytes [97, 98]) = .error .precisionTooBig ∧
      ¬ Refusal (.ofBytes [97, 98]) (Forest.toEntries rules') .precisionTooBig := by
  have h : RuleText.compile "(0.q) byte x found".toList = .ok
      [⟨.integer ⟨.indirect 0 .quad .little false 0, .byte, true, .native, .any, none⟩,
        "found".toList, []⟩] := rfl
  have h' : RuleText.compile "0 string x [%.99999999999999999999s]".toList = .ok
      [⟨.literal ⟨.fixed 0, .any, []⟩, "[%.99999999999999999999s]".toList, []⟩] := rfl
  refine ⟨_, _, h, by decide +kernel, ?_, h', by decide +kernel, ?_⟩
  · intro hrefusal
    obtain ⟨e, -, -, -, hf⟩ := hrefusal
    cases hf
  · intro hrefusal
    obtain ⟨e, -, -, -, hf⟩ := hrefusal
    cases hf

end FileMagic.Scan
