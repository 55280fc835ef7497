import FileMagic.Proofs.Capital
import FileMagic.Proofs.Compile
import FileMagic.Proofs.Evaluation

/-! # Compiled tests have an operand

The test that a rule line is compiled to is of the type that the line names (`Test.HasType`), its
operator exists, and what it holds to compare with is there exactly when it compares, in the form
in which values are read (`Test.WellFormed`). The last is spread over the reader of test values,
which finds a value behind every relation, and the tests themselves, which bring the value into
their form. So the tests of a rule text can be evaluated, but for operators that exist and that
tests for equality do not accept. -/

namespace FileMagic

namespace Width

/-- The integers of a width: as many below zero as not when signed, and else none. -/
def Holds (w : Width) (signed : Bool) (n : Int) : Prop :=
  if signed then -2 ^ (w.bits - 1) ≤ n ∧ n < 2 ^ (w.bits - 1) else 0 ≤ n ∧ n < 2 ^ w.bits

theorem holds_wrap (w : Width) (signed : Bool) (n : Int) : w.Holds signed (w.wrap signed n) := by
  have hpow := w.two_pow_bits
  have hpos : (0 : Int) < 2 ^ w.bits := Int.pow_pos (by decide)
  have hnonneg := Int.emod_nonneg n (Int.ne_of_gt hpos)
  have hlt := Int.emod_lt_of_pos n hpos
  unfold Holds wrap
  cases signed with
  | false => exact ⟨hnonneg, hlt⟩
  | true =>
    simp only [Bool.true_and, decide_eq_true_eq, if_true]
    split
    · omega
    · omega

theorem Holds.lt {w : Width} {signed : Bool} {n : Int} (h : w.Holds signed n) :
    n < 2 ^ w.bits := by
  cases signed with
  | false => exact h.2
  | true =>
    have hhalf : (0 : Int) < 2 ^ (w.bits - 1) := Int.pow_pos (by decide)
    rw [w.two_pow_bits]
    exact Int.lt_trans h.2 (by omega)

end Width

namespace Test

/-- Tests that accept some of the operators only. -/
def isSelective : Test → Bool
  | .literal _ | .regex _ | .guid _ => true
  | _ => false

theorem operators_of_not_isSelective {t : Test} (h : t.isSelective = false) :
    t.operators = Operator.all := by
  cases t with
  | literal t => cases h
  | regex t => cases h
  | guid t => cases h
  | _ => rfl

/-- What a test holds to compare with is there exactly when it compares: an integer is in the range
of what is read, a literal is not empty, an expression has been compiled, an identifier is in
capital letters. -/
def WellFormed : Test → Prop
  | .integer t =>
    (t.expected.isSome ↔ t.operator ≠ .any) ∧ ∀ n ∈ t.expected, t.width.Holds t.signed n
  | .real t => t.expected.isSome ↔ t.operator ≠ .any
  | .date t =>
    (t.expected.isSome ↔ t.operator ≠ .any) ∧ ∀ n ∈ t.expected, t.scale.width.Holds false n
  | .literal t => t.literal ≠ [] ↔ t.operator ≠ .any
  | .regex t => t.pattern.isSome ↔ t.operator ≠ .any
  | .guid t => ∃ u, t.literal = some u ∧ u.upper = u
  | .fallback offset => (fallback offset).operator = .any
  | .unsupported .. => True
  | .bare .. => False

theorem WellFormed.comparable {t : Test} (h : t.WellFormed) : t.Comparable := by
  have hor : ∀ {o : Operator} {present : Bool}, (present ↔ o ≠ .any) → o = .any ∨ present :=
    fun hiff => Decidable.or_iff_not_imp_left.mpr hiff.mpr
  cases t with
  | integer t => exact hor h.1
  | real t => exact hor h
  | date t => exact hor h.1
  | guid t =>
    obtain ⟨u, hu, -⟩ := h
    exact .inr (hu ▸ rfl)
  | bare offset operator expected => exact h.elim
  | _ => exact trivial

/-- The test is of this type, with its width and sign. -/
def HasType (type : RuleText.TypeText) : Test → Prop
  | .integer t => type.type = .integer t.width ∧ type.signed = t.signed
  | .real t => type.type = .real t.type
  | .date t => type.type = .date t.scale t.isLocal
  | .literal _ => type.type = .string
  | .regex _ => type.type = .regex
  | .guid _ => type.type = .guid
  | .fallback _ => type.type = .default
  | .unsupported keyword _ _ => type.type = .unsupported keyword
  | .bare .. => False

/-- A test as it is compiled for a type. -/
structure Compiled (type : RuleText.TypeText) (t : Test) : Prop where
  hasType : t.HasType type
  operator : t.operator ∈ Operator.all
  wellFormed : t.WellFormed

end Test

namespace RuleText

theorem any_mem_all : Operator.any ∈ Operator.all := by decide

/-- Something follows every relation, and nothing has to follow a bare x. -/
structure IsTestValue (o : Operator) (value : Option Text) : Prop where
  operator : o ∈ Operator.all
  isSome_iff : value.isSome ↔ o ≠ .any
  ne_nil : ∀ v ∈ value, v ≠ []

theorem splitRelation_mem (t : Text) :
    (splitRelation t).1 ∈ Operator.all ∧ (splitRelation t).1 ≠ .any := by
  unfold splitRelation
  split <;> simp [Operator.all]

theorem isTestValue_of_read {text : Text} {o : Operator} {value : Option Text}
    (h : readTestValue text = .ok (o, value)) : IsTestValue o value := by
  unfold readTestValue at h
  by_cases hany : text = anyValue
  · rw [if_pos hany] at h
    cases h
    exact ⟨any_mem_all, by simp, nofun⟩
  · rw [if_neg hany] at h
    simp only at h
    split at h
    · cases h
    · rename_i hvalue
      cases h
      obtain ⟨hall, hne⟩ := splitRelation_mem text
      refine ⟨hall, by simp [hne], fun v hv => ?_⟩
      cases hv
      simpa using hvalue

theorem isSome_readIntegerValue {bits : Nat} {value : Option Text} {n : Option Int}
    (h : readIntegerValue bits value = .ok n) : n.isSome = value.isSome := by
  cases value with
  | none => cases h; rfl
  | some text =>
    obtain ⟨m, -, rfl⟩ := map_eq_ok_iff.mp h
    rfl

theorem isSome_makeReal {offset : Offset} {type : RealType} {e : Endianness} {o : Operator}
    {value : Option Text} {d : Value} {t : RealTest} (hd : readRealValue value = .ok d)
    (h : RealTest.make offset type e o d = .ok t) : t.expected.isSome = value.isSome := by
  obtain ⟨rounded, hr, rfl⟩ := map_eq_ok_iff.mp h
  cases value with
  | none =>
    cases hd
    cases hr
    rfl
  | some text =>
    obtain ⟨x, -, rfl⟩ := map_eq_ok_iff.mp hd
    simp only [RealType.round] at hr
    split at hr
    · cases hr
    · cases hr
      rfl

theorem makeReal_fields {offset : Offset} {type : RealType} {e : Endianness}
    {o : Operator} {d : Value} {t : RealTest} (h : RealTest.make offset type e o d = .ok t) :
    t.operator = o ∧ t.type = type := by
  obtain ⟨rounded, -, rfl⟩ := map_eq_ok_iff.mp h
  exact ⟨rfl, rfl⟩

theorem makeRegex_fields [RegexEngine] {offset : Offset} {o : Operator} {source extender : Text}
    {t : RegexTest} (h : RegexTest.make offset o source extender = .ok t) :
    t.operator = o ∧ (t.pattern.isSome ↔ o ≠ .any) := by
  obtain ⟨ext, -, h⟩ := bind_eq_ok_iff.mp h
  split at h
  · rename_i hany
    cases h
    exact ⟨rfl, by simp [hany]⟩
  · rename_i hany
    split at h
    · cases h
      exact ⟨rfl, by simp [hany]⟩
    · cases h

theorem forall_wrapped {w : Width} {signed : Bool} {n : Option Int} :
    ∀ m ∈ n.map (w.wrap signed), w.Holds signed m := by
  intro m hm
  obtain ⟨k, -, rfl⟩ := Option.map_eq_some_iff.mp hm
  exact w.holds_wrap signed k

theorem makeLiteral_wellFormed {offset : Offset} {o : Operator} {value : Option Text}
    (h : IsTestValue o value) :
    (Test.literal (.make offset o (value.getD []).utf8)).WellFormed := by
  rw [Test.WellFormed, LiteralTest.make]
  by_cases hany : o = .any
  · simp [hany]
  · obtain ⟨v, rfl⟩ := Option.isSome_iff_exists.mp (h.isSome_iff.mpr hany)
    simp [hany, Text.utf8_ne_nil (h.ne_nil v rfl)]

variable [RegexEngine]

theorem buildTest_compiled {offset : Offset} {type : TypeText} {o : Operator}
    {value : Option Text} {t : Test} (hv : IsTestValue o value)
    (h : buildTest offset type o value = .ok t) : t.Compiled type := by
  unfold buildTest at h
  split at h
  · rename_i width htype
    obtain ⟨n, hn, h⟩ := bind_eq_ok_iff.mp h
    cases h
    refine ⟨⟨htype, rfl⟩, hv.operator, ?_, forall_wrapped⟩
    rw [IntegerTest.make, Option.isSome_map, isSome_readIntegerValue hn]
    exact hv.isSome_iff
  · rename_i real htype
    obtain ⟨d, hd, h⟩ := bind_eq_ok_iff.mp h
    obtain ⟨test, ht, rfl⟩ := map_eq_ok_iff.mp h
    obtain ⟨rfl, rfl⟩ := makeReal_fields ht
    refine ⟨htype, hv.operator, ?_⟩
    rw [Test.WellFormed, isSome_makeReal hd ht]
    exact hv.isSome_iff
  · rename_i scale isLocal htype
    obtain ⟨n, hn, h⟩ := bind_eq_ok_iff.mp h
    cases h
    refine ⟨htype, hv.operator, ?_, forall_wrapped⟩
    rw [DateTest.make, Option.isSome_map, isSome_readIntegerValue hn]
    exact hv.isSome_iff
  · rename_i htype
    cases h
    exact ⟨htype, hv.operator, makeLiteral_wellFormed hv⟩
  · rename_i htype
    obtain ⟨test, ht, rfl⟩ := map_eq_ok_iff.mp h
    obtain ⟨rfl, hpattern⟩ := makeRegex_fields ht
    exact ⟨htype, hv.operator, hpattern⟩
  · rename_i htype
    cases h
    exact ⟨htype, hv.operator, _, rfl, Text.upper_upper _⟩
  · rename_i htype
    cases h
    exact ⟨htype, any_mem_all, rfl⟩
  · rename_i keyword htype
    cases h
    exact ⟨htype, any_mem_all, trivial⟩

theorem readTest_compiled {offset : Offset} {typeText valueText : Text} {t : Test}
    (h : readTest offset typeText valueText = .ok t) :
    ∃ type, readType typeText = .ok type ∧ t.Compiled type := by
  obtain ⟨type, htype, h⟩ := bind_eq_ok_iff.mp h
  refine ⟨type, htype, ?_⟩
  split at h
  · rename_i keyword hkeyword
    split at h
    · cases h
    · cases h
      exact ⟨hkeyword, any_mem_all, trivial⟩
  · rename_i hdefault
    split at h
    · cases h
    · cases h
      exact ⟨hdefault, any_mem_all, rfl⟩
  · obtain ⟨⟨o, value⟩, hvalue, h⟩ := bind_eq_ok_iff.mp h
    exact buildTest_compiled (isTestValue_of_read hvalue) h

/-- The second field of a rule line names the type of its test. -/
theorem readLine_compiled {line : Text} {e : Entry} (h : readLine line = .ok e) :
    ∃ offsetText typeText rest type, line.words = offsetText :: typeText :: rest ∧
      readType typeText = .ok type ∧ e.test.Compiled type := by
  unfold readLine at h
  split at h
  · rename_i offsetText typeText valueText message hwords
    obtain ⟨offset, -, h⟩ := bind_eq_ok_iff.mp h
    obtain ⟨test, ht, h⟩ := bind_eq_ok_iff.mp h
    cases h
    obtain ⟨type, htype, htest⟩ := readTest_compiled ht
    exact ⟨offsetText, typeText, valueText :: message, type, hwords, htype, htest⟩
  · cases h

/-- The tests of a rule text. -/
theorem Reads.comparable {lines : List Text} {entries : List Entry} (h : Reads lines entries)
    {e : Entry} (he : e ∈ entries) : e.test.operator ∈ Operator.all ∧ e.test.Comparable := by
  have hmem : (.ok e : Except Fault Entry) ∈ entries.map .ok := List.mem_map_of_mem he
  rw [← h] at hmem
  obtain ⟨line, -, hline⟩ := List.mem_map.mp hmem
  obtain ⟨-, -, -, type, -, -, htest⟩ := readLine_compiled hline
  exact ⟨htest.operator, htest.wellFormed.comparable⟩

end RuleText
end FileMagic
