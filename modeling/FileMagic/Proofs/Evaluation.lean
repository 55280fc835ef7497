import FileMagic.Proofs.Rendering
import FileMagic.Proofs.Slice
import FileMagic.Test.Evaluate

/-! # When a test has no outcome

A test that has an operand for its operator is evaluated unless its operator is not one of
those it accepts, it has to look beyond the bound of positions, or its message cannot be
rendered from where it matches (`evaluate_fails_iff`). What the octets are never matters: they
can only lead beyond the bound. -/

namespace FileMagic

variable {s : Stream}

theorem Width.octets_pos (w : Width) : 0 < (w.octets : Int) := by cases w <;> decide

theorem Width.octets_lt (w : Width) : (w.octets : Int) < Stream.positionLimit := by
  cases w <;> decide

theorem Width.octets_le_chunkSize (w : Width) : (w.octets : Int) ≤ Stream.chunkSize := by
  cases w <;> decide

namespace Stream

theorem readAt_fails_iff (hs : s.InMemory) {p size : Int} :
    Fails (s.readAt (some p) size) ↔ Beyond p size := by
  by_cases h : Beyond p size
  · simp [hs.readAt_of_beyond h, h]
  · simp [hs.readAt_of_not_beyond h, h]

theorem beyond_octets_iff {p : Int} {w : Width} : Beyond p w.octets ↔ positionLimit ≤ p := by
  constructor
  · intro h
    rcases h with ⟨-, -, h | h⟩
    · exact h
    · exact absurd w.octets_lt (Int.not_lt.mpr h)
  · intro h
    exact ⟨Int.le_trans (by decide) h, w.octets_pos, .inl h⟩

end Stream

namespace Offset

mutual

/-- A pointer on the way is beyond the bound of positions. -/
def Overreaches (s : Stream) (reference : Int) : Offset → Prop
  | .fixed _ => False
  | .indirect value _ _ _ _ => Stream.positionLimit ≤ reference + value
  | .chain first rest =>
    Overreaches s reference first ∨
      ∃ p, resolve s reference first = .ok (some p) ∧ StagesOverreach s p rest

def StagesOverreach (s : Stream) (position : Int) : List Offset → Prop
  | [] => False
  | o :: rest =>
    Overreaches s position o ∨
      ∃ p, resolve s position o = .ok (some p) ∧ StagesOverreach s p rest

end

mutual

theorem resolve_fails_iff (hs : s.InMemory) (reference : Int) :
    ∀ o : Offset, Fails (o.resolve s reference) ↔ o.Overreaches s reference
  | .fixed _ => by simp [resolve, Overreaches]
  | .indirect value width endianness signed delta => by
    rw [resolve, Overreaches, fails_bind_iff, Stream.readAt_fails_iff hs,
      Stream.beyond_octets_iff]
    constructor
    · intro h
      rcases h with h | ⟨raw, -, h⟩
      · exact h
      · split at h <;> simp at h
    · exact .inl
  | .chain first rest => by
    rw [resolve, Overreaches, ← resolve_fails_iff hs reference first]
    simp only [← resolveStages_fails_iff hs _ rest]
    exact fails_bindSome_iff (not_fails_ok none)

theorem resolveStages_fails_iff (hs : s.InMemory) (position : Int) :
    ∀ stages : List Offset, Fails (resolveStages s position stages) ↔
      StagesOverreach s position stages
  | [] => by simp [resolveStages, StagesOverreach]
  | o :: rest => by
    rw [resolveStages, StagesOverreach, ← resolve_fails_iff hs position o]
    simp only [← resolveStages_fails_iff hs _ rest]
    exact fails_bindSome_iff (not_fails_ok none)

end

end Offset

namespace Value

/-- Values that can be compared always are, by an operator that exists. -/
theorem not_fails_compare {actual expected : Value} {o : Operator} (ho : o ∈ Operator.all)
    (h : o = .any ∨ (order? actual expected).isSome) : ¬ Fails (actual.compare expected o) := by
  cases o with
  | any => simp [compare]
  | unknown name => simp [Operator.all] at ho
  | _ =>
    obtain ⟨order, horder⟩ := Option.isSome_iff_exists.mp (h.resolve_left nofun)
    simp [compare, horder]

end Value

namespace ProbeFault

theorem ofRead_fails_iff {α : Type} {x : Except ReadFault α} : Fails (ofRead x) ↔ Fails x := by
  cases x with
  | error e => simp 
  | ok a => simp

theorem ofRead_eq_ok_iff {α : Type} {x : Except ReadFault α} {a : α} :
    ofRead x = .ok a ↔ x = .ok a := by
  cases x with
  | error e => simp 
  | ok b => simp

end ProbeFault

namespace Test

theorem readExactly_fails_iff (hs : s.InMemory) {offset : Offset} {size : Nat} :
    Fails (readExactly s offset size) ↔ offset.Overreaches s 0 ∨
      ∃ p, offset.resolve s 0 = .ok (some p) ∧ Stream.Beyond p size := by
  rw [readExactly, ← offset.resolve_fails_iff hs 0]
  simp only [← Stream.readAt_fails_iff hs]
  refine (fails_bindSome_iff (by exact not_fails_ok none)).trans ?_
  refine or_congr_right (exists_congr fun p => and_congr_right fun _ => ?_)
  simp [fails_bind_iff]

/-- A test of a value that can be compared fails only where it cannot read. -/
theorem compareDecoded_fails_iff (hs : s.InMemory) {offset : Offset} {size : Nat}
    {decode : Bytes → Value} {expected : Value} {o : Operator} {shown : Value → Option Text}
    (ho : o ∈ Operator.all)
    (hcomparable : o = .any ∨ ∀ raw, (Value.order? (decode raw) expected).isSome) :
    Fails (compareDecoded s offset size decode expected o shown) ↔ offset.Overreaches s 0 ∨
      ∃ p, offset.resolve s 0 = .ok (some p) ∧ Stream.Beyond p size := by
  have hcompare : ∀ raw, ¬ Fails ((decode raw).compare expected o) := fun raw =>
    Value.not_fails_compare ho (hcomparable.imp_right fun h => h raw)
  rw [compareDecoded, ← readExactly_fails_iff hs]
  refine (fails_bindSome_iff (by exact not_fails_ok none)).trans ?_
  rw [ProbeFault.ofRead_fails_iff, or_iff_left]
  intro hfails
  obtain ⟨⟨p, raw⟩, -, h⟩ := hfails
  rcases fails_bind_iff.mp h with h | ⟨matched, -, h⟩
  · exact hcompare raw h
  · cases matched <;> simp at h

end Test

namespace RegexTest

/-- There are no octets to look in. -/
def LooksBeyond (t : RegexTest) (p : Int) : Prop :=
  0 ≤ p ∧ (Stream.positionLimit ≤ p ∨
    t.extender.lines = false ∧ Stream.positionLimit ≤ t.extender.count)

theorem window_fails_iff (hs : s.InMemory) (t : RegexTest) {p : Int} :
    Fails (t.window s p) ↔ t.LooksBeyond p := by
  unfold window LooksBeyond
  by_cases hp : p < Stream.positionLimit
  · by_cases hcount : t.extender.count = 0
    · have hzero : 0 < Stream.positionLimit := by decide
      simp [hcount, hs.readable.readAll_eq (hs.lt_bound hp), Int.not_le.mpr hp, hzero]
    · cases hlines : t.extender.lines with
      | true =>
        have hlines_eq := hs.readable.readLines_eq t.extender.count (hs.lt_bound hp)
        simp [hcount, hlines_eq, Int.not_le.mpr hp]
      | false =>
        simp only [if_neg hcount, Bool.false_eq_true, if_false, fails_bind_iff,
          Stream.readAt_fails_iff hs, Stream.Beyond, pure_eq_ok, not_fails_ok, and_false,
          exists_false, or_false, Int.not_le.mpr hp, false_or, true_and]
        refine and_congr_right fun _ => and_iff_right ?_
        omega
  · have hle := Int.not_lt.mp hp
    have hpos : 0 ≤ p := Int.le_trans (by decide) hle
    by_cases hcount : t.extender.count = 0
    · simp [hcount, hs.readAll_of_limit_le hle, hle, hpos]
    · have hcount' : (0 : Int) < t.extender.count := by omega
      cases hlines : t.extender.lines with
      | true => simp [hcount, hs.readLines_of_limit_le hle hcount', hle, hpos]
      | false =>
        have hbeyond : Stream.Beyond p t.extender.count := ⟨hpos, hcount', .inl hle⟩
        simp [hcount, hs.readAt_of_beyond hbeyond, hle, hpos]

theorem hit_fails_iff (hs : s.InMemory) (t : RegexTest)
    (search : Bytes → Option Regex.Span) : Fails (t.hit search s) ↔
      t.offset.Overreaches s 0 ∨ ∃ p, t.offset.resolve s 0 = .ok (some p) ∧
        t.operator ≠ .any ∧ t.LooksBeyond p := by
  rw [hit, ← t.offset.resolve_fails_iff hs 0]
  refine (fails_bindSome_iff (by exact not_fails_ok none)).trans ?_
  simp only [ProbeFault.ofRead_fails_iff, ProbeFault.ofRead_eq_ok_iff]
  refine or_congr_right (exists_congr fun p => and_congr_right fun _ => ?_)
  by_cases hany : t.operator = .any
  · simp [hany]
  · rw [if_neg hany, fails_bind_iff, ProbeFault.ofRead_fails_iff, window_fails_iff hs,
      and_iff_right hany, or_iff_left]
    intro h
    obtain ⟨window, -, h⟩ := h
    split at h
    · simp at h
    · split at h <;> simp at h

end RegexTest

namespace Test

/-- A test that has something to compare with, and says how. -/
def Comparable : Test → Prop
  | .integer t => t.operator = .any ∨ t.expected.isSome
  | .real t => t.operator = .any ∨ t.expected.isSome
  | .date t => t.operator = .any ∨ t.expected.isSome
  | .guid t => t.operator = .any ∨ t.literal.isSome
  | .literal _ | .regex _ | .fallback _ | .unsupported .. => True
  | .bare .. => False

/-- A position at which the test cannot look for what it needs. -/
def LooksBeyond (p : Int) : Test → Prop
  | .integer t => Stream.Beyond p t.width.octets
  | .real t => Stream.Beyond p t.type.octets
  | .date t => Stream.Beyond p t.scale.width.octets
  | .literal t => Stream.Beyond p t.literal.length
  | .guid _ => Stream.Beyond p Guid.size
  | .regex t => t.operator ≠ .any ∧ t.LooksBeyond p
  | .fallback _ | .unsupported .. | .bare .. => False

/-- The test has to look beyond the bound of positions: on the way to its offset or there. -/
def ReachesBeyond (s : Stream) : Test → Prop
  | .unsupported .. => False
  | t => t.offset.Overreaches s 0 ∨
      ∃ p, t.offset.resolve s 0 = .ok (some p) ∧ t.LooksBeyond p

theorem mem_all_of_mem_operators {o : Operator} {t : Test} (h : o ∈ t.operators) :
    o ∈ Operator.all := by
  have heq : Operator.equalities ⊆ Operator.all := by decide
  have hregex : [Operator.equal, .any] ⊆ Operator.all := by decide
  cases t with
  | literal _ => exact heq h
  | guid _ => exact heq h
  | regex _ => exact hregex h
  | _ => exact h

theorem hit_fails_iff (hs : s.InMemory) {t : Test} (ho : t.operator ∈ t.operators)
    (hc : t.Comparable) : Fails (t.hit s) ↔ t.ReachesBeyond s := by
  have hall := mem_all_of_mem_operators ho
  unfold hit ReachesBeyond
  cases t with
  | integer t =>
    refine compareDecoded_fails_iff hs hall (hc.imp_right fun h raw => ?_)
    obtain ⟨n, hn⟩ := Option.isSome_iff_exists.mp h
    rw [hn]
    rfl
  | real t =>
    refine compareDecoded_fails_iff hs hall (hc.imp_right fun h raw => ?_)
    obtain ⟨d, hd⟩ := Option.isSome_iff_exists.mp h
    rw [hd]
    rfl
  | date t =>
    refine compareDecoded_fails_iff hs hall (hc.imp_right fun h raw => ?_)
    obtain ⟨n, hn⟩ := Option.isSome_iff_exists.mp h
    rw [hn]
    rfl
  | literal t => exact compareDecoded_fails_iff hs hall (.inr fun raw => rfl)
  | guid t =>
    refine compareDecoded_fails_iff hs hall (hc.imp_right fun h raw => ?_)
    obtain ⟨u, hu⟩ := Option.isSome_iff_exists.mp h
    rw [hu]
    rfl
  | regex t => exact t.hit_fails_iff hs t.find
  | fallback offset =>
    have hoffset := offset.resolve_fails_iff hs 0
    simp [LooksBeyond, Test.offset, fails_bind_iff, ProbeFault.ofRead_fails_iff, hoffset]
  | unsupported keyword offset value => simp
  | bare offset operator expected => exact hc.elim

/-- The test is evaluated, but not to an outcome. -/
def Strains (s : Stream) (message : Text) (t : Test) : Prop :=
  t.ReachesBeyond s ∨ ∃ hit, t.hit s = .ok (some hit) ∧
    Template.Faults s hit.shown hit.position (Template.pieces message)

theorem evaluate_of_not_mem {message : Text} {t : Test} (h : t.operator ∉ t.operators) :
    t.evaluate s message = .error (.operator t.operator t.kind) := by
  have hcontains : t.operators.contains t.operator ≠ true := fun hc =>
    h (List.contains_iff_mem.mp hc)
  rw [evaluate, checkOperator, if_neg hcontains, error_bind]

theorem evaluate_of_no_hit {t : Test} (ho : t.operator ∈ t.operators)
    (h : t.hit s = .ok none) (template : Text) : t.evaluate s template = .ok none := by
  rw [evaluate, checkOperator, if_pos (List.contains_iff_mem.mpr ho), ok_bind, h]
  rfl

theorem evaluate_of_hit {t : Test} (ho : t.operator ∈ t.operators) {hit : Hit}
    (h : t.hit s = .ok (some hit)) (template : Text) : t.evaluate s template =
      (Template.render s hit.position template hit.shown).map some := by
  rw [evaluate, checkOperator, if_pos (List.contains_iff_mem.mpr ho), ok_bind, h]
  rfl

theorem evaluate_fails_iff (hs : s.InMemory) {message : Text} {t : Test}
    (ho : t.operator ∈ t.operators) (hc : t.Comparable) :
    Fails (t.evaluate s message) ↔ t.Strains s message := by
  rw [evaluate, checkOperator, if_pos (List.contains_iff_mem.mpr ho), ok_bind, Strains,
    ← hit_fails_iff hs ho hc]
  refine (fails_bindSome_iff (by exact not_fails_ok none)).trans ?_
  refine or_congr_right (exists_congr fun hit => and_congr_right fun _ => ?_)
  exact fails_map_iff.trans (Template.render_fails_iff hs hit.position message hit.shown)

end Test
end FileMagic
