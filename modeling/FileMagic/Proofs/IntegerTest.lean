import FileMagic.Proofs.Operand
import FileMagic.Proofs.PlaceValue
import Mathlib.Algebra.Order.Group.Unbundled.Int

/-! # Tests of integers

An integer test compares two integers of its width and sign: the one that stands for what its
octets count, and the one that stands for the integer it was made with. Which integers these are is
said by their residue and their range alone (`Width.Represents`), and a test accepts a position by
them (`IntegerTest.Accepts`). A test has no other outcome: it does not match where it accepts
nothing, and where it accepts a position its message is rendered from behind the octets
(`IntegerTest.evaluate_iff_accepts`). -/

namespace FileMagic

namespace Width

/-- The integer `m` of a width stands for `n`. -/
structure Represents (w : Width) (signed : Bool) (n m : Int) : Prop where
  holds : w.Holds signed m
  congruent : m ≡ n [ZMOD 2 ^ w.bits]

theorem wrap_congruent (w : Width) (signed : Bool) (n : Int) :
    w.wrap signed n ≡ n [ZMOD 2 ^ w.bits] := by
  have hlow : n % 2 ^ w.bits ≡ n [ZMOD 2 ^ w.bits] := Int.mod_modEq n _
  unfold wrap
  simp only
  split
  · exact Int.sub_modulus_modEq_iff.mpr hlow
  · exact hlow

/-- No two integers of a width stand for the same. -/
theorem Holds.eq_of_congruent {w : Width} {signed : Bool} {m k : Int} (hm : w.Holds signed m)
    (hk : w.Holds signed k) (h : m ≡ k [ZMOD 2 ^ w.bits]) : m = k := by
  have hdvd : (2 : Int) ^ w.bits ∣ k - m := h.dvd
  have hpow := w.two_pow_bits
  have hnear : |k - m| < 2 ^ w.bits := by
    unfold Holds at hm hk
    rw [abs_lt]
    cases signed with
    | false =>
      simp only [Bool.false_eq_true, if_false] at hm hk
      omega
    | true =>
      simp only [if_true] at hm hk
      omega
  have hzero := Int.eq_zero_of_abs_lt_dvd hdvd hnear
  omega

theorem represents_iff {w : Width} {signed : Bool} {n m : Int} :
    w.Represents signed n m ↔ m = w.wrap signed n := by
  constructor
  · intro h
    exact h.holds.eq_of_congruent (w.holds_wrap signed n)
      (h.congruent.trans (w.wrap_congruent signed n).symm)
  · rintro rfl
    exact ⟨w.holds_wrap signed n, w.wrap_congruent signed n⟩

theorem existsUnique_represents (w : Width) (signed : Bool) (n : Int) :
    ∃! m, w.Represents signed n m :=
  ⟨w.wrap signed n, represents_iff.mpr rfl, fun _ h => represents_iff.mp h⟩

/-- Signed or not, integers are told apart by their residues. -/
theorem wrap_eq_wrap_iff {w : Width} {signed : Bool} {m n : Int} :
    w.wrap signed m = w.wrap signed n ↔ m ≡ n [ZMOD 2 ^ w.bits] := by
  constructor
  · intro h
    have hm := w.wrap_congruent signed m
    rw [h] at hm
    exact hm.symm.trans (w.wrap_congruent signed n)
  · intro h
    exact (w.holds_wrap signed m).eq_of_congruent (w.holds_wrap signed n)
      (((w.wrap_congruent signed m).trans h).trans (w.wrap_congruent signed n).symm)

end Width

namespace Operator

/-- How the operator relates an integer that was read to an expected one. -/
def Relates : Operator → Int → Int → Prop
  | .equal, v, m => v = m
  | .notEqual, v, m => v ≠ m
  | .greater, v, m => m < v
  | .less, v, m => v < m
  | .atLeast, v, m => m ≤ v
  | .atMost, v, m => v ≤ m
  | .any, _, _ => True
  | .unknown _, _, _ => False

instance (o : Operator) (v m : Int) : Decidable (o.Relates v m) :=
  match o with
  | .equal => inferInstanceAs (Decidable (v = m))
  | .notEqual => inferInstanceAs (Decidable (v ≠ m))
  | .greater => inferInstanceAs (Decidable (m < v))
  | .less => inferInstanceAs (Decidable (v < m))
  | .atLeast => inferInstanceAs (Decidable (m ≤ v))
  | .atMost => inferInstanceAs (Decidable (v ≤ m))
  | .any => inferInstanceAs (Decidable True)
  | .unknown _ => inferInstanceAs (Decidable False)

theorem mem_all_of_isEquality {o : Operator} (h : o.isEquality = true) : o ∈ all := by
  cases o with
  | equal => decide
  | notEqual => decide
  | _ => cases h

end Operator

namespace Value

theorem compare_int_relates (v m : Int) {o : Operator} (ho : o ∈ Operator.all) :
    (Value.int v).compare (.int m) o = .ok (decide (o.Relates v m)) := by
  cases o with
  | unknown name => simp [Operator.all] at ho
  | any => rfl
  | _ =>
    simp only [compare, order?, Operator.holds, Operator.Relates]
    rcases lt_trichotomy v m with h | h | h
    · simp [Int.compare_eq_lt.mpr h, h, h.le, h.ne, h.not_gt, h.not_ge]
    · simp [h]
    · simp [Int.compare_eq_gt.mpr h, h, h.le, h.ne', h.not_gt, h.not_ge]

end Value

namespace Stream

/-- So many octets are all there. -/
theorem length_take_rest_iff {s : Stream} {p : Int} {size : Nat} (hsize : 0 < size) :
    ((s.rest p).take size).length = size ↔ 0 ≤ p ∧ p + size ≤ s.content.length := by
  rw [List.length_take, inf_eq_left]
  by_cases hp : 0 ≤ p
  · rw [length_rest hp]
    omega
  · rw [length_rest_of_neg (Int.not_le.mp hp)]
    omega

end Stream

/-- An offset can be resolved, and leads to a position below the bound if to any. -/
structure Offset.InBounds (s : Stream) (o : Offset) : Prop where
  reach : ¬ o.Overreaches s 0
  limit : ∀ p, o.resolve s 0 = .ok (some p) → p < Stream.positionLimit

namespace IntegerTest

/-- The octets at a position are all there, and the integer that stands for what they count relates
to the one that stands for `n`. -/
def Accepts (w : Width) (signed : Bool) (e : Endianness) (o : Operator) (n : Int)
    (content : Bytes) (p : Int) : Prop :=
  0 ≤ p ∧ p + w.octets ≤ content.length ∧
    (o = .any ∨ ∃ v m,
      w.Represents signed (e.order.value ((content.drop p.toNat).take w.octets)) v ∧
        w.Represents signed n m ∧ o.Relates v m)

variable {w : Width} {signed : Bool} {e : Endianness} {o : Operator} {n p : Int}
  {content : Bytes}

theorem accepts_iff : Accepts w signed e o n content p ↔
    0 ≤ p ∧ p + w.octets ≤ content.length ∧
      o.Relates (w.decode signed e ((content.drop p.toNat).take w.octets))
        (w.wrap signed n) := by
  simp only [Accepts, Width.represents_iff, exists_and_left, exists_eq_left, Width.decode,
    ByteOrder.decode_eq_value]
  refine and_congr_right fun _ => and_congr_right fun _ => or_iff_right_of_imp ?_
  rintro rfl
  exact trivial

instance : Decidable (Accepts w signed e o n content p) := decidable_of_iff _ accepts_iff.symm

/-- For equality a test asks for the octets of its integer, whatever its sign. -/
theorem accepts_equal_iff : Accepts w signed e .equal n content p ↔
    0 ≤ p ∧ Stream.Found content p.toNat (w.encode e n) := by
  rw [accepts_iff, Stream.Found, w.length_encode, Width.eq_encode_iff, Operator.Relates,
    Width.decode, ByteOrder.decode_eq_value, Width.wrap_eq_wrap_iff, List.length_take,
    List.length_drop]
  have hpos := w.octets_pos
  refine and_congr_right fun _ => and_congr_left fun _ => ?_
  omega

/-- Whether two integers are equal does not depend on their sign. -/
theorem accepts_signed_iff (ho : o.isEquality = true) :
    Accepts w true e o n content p ↔ Accepts w false e o n content p := by
  have hequal : ∀ signed, w.decode signed e ((content.drop p.toNat).take w.octets) =
      w.wrap signed n ↔
        (e.order.decode ((content.drop p.toNat).take w.octets) : Int) ≡ n [ZMOD 2 ^ w.bits] :=
    fun signed => Width.wrap_eq_wrap_iff
  rw [accepts_iff, accepts_iff]
  refine and_congr_right fun _ => and_congr_right fun _ => ?_
  cases o with
  | equal => exact (hequal true).trans (hequal false).symm
  | notEqual => exact not_congr ((hequal true).trans (hequal false).symm)
  | _ => cases ho

end IntegerTest

namespace Test

variable {s : Stream} {offset : Offset} {w : Width} {signed : Bool} {e : Endianness}
  {o : Operator} {n p : Int}

/-- The test for an integer that relates to `n`. -/
abbrev ofInteger (offset : Offset) (w : Width) (signed : Bool) (e : Endianness) (o : Operator)
    (n : Int) : Test :=
  .integer (.make offset w signed e o (some n))

theorem hit_ofInteger (hs : s.InMemory) (ho : o ∈ Operator.all)
    (hr : offset.resolve s 0 = .ok (some p)) (hp : p < Stream.positionLimit) :
    (ofInteger offset w signed e o n).hit s =
      .ok (if IntegerTest.Accepts w signed e o n s.content p then
        some ⟨some (p + w.octets), none⟩ else none) := by
  have hwhole : ((s.rest p).take w.octets).length = w.octets ↔
      0 ≤ p ∧ p + w.octets ≤ s.content.length :=
    Stream.length_take_rest_iff (by exact_mod_cast w.octets_pos)
  have hread : readExactly s offset w.octets =
      .ok (if ((s.rest p).take w.octets).length ≠ w.octets then none
        else some (p, (s.rest p).take w.octets)) := by
    rw [readExactly, hr, ok_bind]
    simp only [hs.readAt_of_not_beyond (Stream.not_beyond hp w.octets_lt), ok_bind,
      Int.toNat_natCast, pure_eq_ok]
  rw [ofInteger, hit, IntegerTest.make, Option.map_some, compareDecoded, hread,
    ProbeFault.ofRead_ok, ok_bind]
  by_cases hlen : ((s.rest p).take w.octets).length = w.octets
  · obtain ⟨hnonneg, hlast⟩ := hwhole.mp hlen
    have haccepts : IntegerTest.Accepts w signed e o n s.content p ↔
        o.Relates (w.decode signed e ((s.rest p).take w.octets)) (w.wrap signed n) := by
      rw [IntegerTest.accepts_iff, Stream.rest_of_nonneg hnonneg, and_iff_right hnonneg,
        and_iff_right hlast]
    rw [if_neg (not_not_intro hlen)]
    simp only [Value.ofInt?, Value.compare_int_relates _ _ ho, ok_bind, haccepts,
      decide_eq_true_eq]
    split <;> rfl
  · have hnot : ¬ IntegerTest.Accepts w signed e o n s.content p := fun h =>
      hlen (hwhole.mpr ⟨h.1, h.2.1⟩)
    rw [if_pos hlen, if_neg hnot]
    rfl

theorem hit_ofInteger_of_none (hr : offset.resolve s 0 = .ok none) :
    (ofInteger offset w signed e o n).hit s = .ok none := by
  rw [ofInteger, hit, IntegerTest.make, compareDecoded, readExactly, hr]
  rfl

/-- A test that accepts its position renders its message from behind the octets. -/
theorem evaluate_of_accepts (hs : s.InMemory) (ho : o ∈ Operator.all)
    (hr : offset.resolve s 0 = .ok (some p)) (hp : p < Stream.positionLimit)
    (h : IntegerTest.Accepts w signed e o n s.content p) (template : Text) :
    (ofInteger offset w signed e o n).evaluate s template =
      (Template.render s (some (p + w.octets)) template none).map some := by
  have hhit : (ofInteger offset w signed e o n).hit s =
      .ok (some ⟨some (p + w.octets), none⟩) := by
    rw [hit_ofInteger hs ho hr hp, if_pos h]
  exact evaluate_of_hit (t := ofInteger offset w signed e o n) ho hhit template

theorem evaluate_of_not_accepts (hs : s.InMemory) (ho : o ∈ Operator.all)
    (hoffset : offset.InBounds s)
    (h : ¬ ∃ p, offset.resolve s 0 = .ok (some p) ∧
      IntegerTest.Accepts w signed e o n s.content p) (template : Text) :
    (ofInteger offset w signed e o n).evaluate s template = .ok none := by
  refine evaluate_of_no_hit (t := ofInteger offset w signed e o n) ho ?_ template
  cases hr : offset.resolve s 0 with
  | error fault => exact absurd ((offset.resolve_fails_iff hs 0).mp ⟨fault, hr⟩) hoffset.reach
  | ok position =>
    cases position with
    | none => exact hit_ofInteger_of_none hr
    | some p => rw [hit_ofInteger hs ho hr (hoffset.limit p hr), if_neg fun ha => h ⟨p, hr, ha⟩]

theorem evaluate_eq_none_iff (hs : s.InMemory) (ho : o ∈ Operator.all)
    (hoffset : offset.InBounds s) (template : Text) :
    (ofInteger offset w signed e o n).evaluate s template = .ok none ↔
      ¬ ∃ p, offset.resolve s 0 = .ok (some p) ∧
        IntegerTest.Accepts w signed e o n s.content p := by
  refine ⟨?_, fun h => evaluate_of_not_accepts hs ho hoffset h template⟩
  rintro hnone ⟨p, hr, haccepts⟩
  rw [evaluate_of_accepts hs ho hr (hoffset.limit p hr) haccepts] at hnone
  obtain ⟨t, -, ht⟩ := map_eq_ok_iff.mp hnone
  cases ht

/-- An equality is evaluated alike with a sign and without. -/
theorem evaluate_signed (hs : s.InMemory) (ho : o.isEquality = true)
    (hoffset : offset.InBounds s) (template : Text) :
    (ofInteger offset w true e o n).evaluate s template =
      (ofInteger offset w false e o n).evaluate s template := by
  have hall : o ∈ Operator.all := Operator.mem_all_of_isEquality ho
  by_cases haccepted : ∃ p, offset.resolve s 0 = .ok (some p) ∧
      IntegerTest.Accepts w true e o n s.content p
  · obtain ⟨p, hr, h⟩ := haccepted
    have hp := hoffset.limit p hr
    rw [evaluate_of_accepts hs hall hr hp h,
      evaluate_of_accepts hs hall hr hp ((IntegerTest.accepts_signed_iff ho).mp h)]
  · rw [evaluate_of_not_accepts hs hall hoffset haccepted]
    simp only [IntegerTest.accepts_signed_iff ho] at haccepted
    rw [evaluate_of_not_accepts hs hall hoffset haccepted]

/-- No operator, not even one that does not exist, matches what cannot be read. -/
theorem evaluate_of_unread (hs : s.InMemory) (hoffset : offset.InBounds s)
    (h : ∀ p, offset.resolve s 0 = .ok (some p) → p < 0 ∨ s.content.length < p + w.octets)
    (template message : Text) :
    (ofInteger offset w signed e o n).evaluate s template ≠ .ok (some message) := by
  intro hmatch
  by_cases ho : o ∈ Operator.all
  · have hnot : ¬ ∃ p, offset.resolve s 0 = .ok (some p) ∧
        IntegerTest.Accepts w signed e o n s.content p := by
      rintro ⟨p, hr, hnonneg, hlast, -⟩
      have hgap := h p hr
      omega
    rw [evaluate_of_not_accepts hs ho hoffset hnot] at hmatch
    cases hmatch
  · rw [evaluate_of_not_mem (t := ofInteger offset w signed e o n) ho] at hmatch
    cases hmatch

end Test

namespace IntegerTest

variable {content : Bytes} {offset : Offset}

/-- When a test matches and with which message, in which integers it compares, which octets are
equal to an integer, and that neither a sign matters to an equality nor an operator to what cannot
be read. -/
theorem evaluate_iff_accepts (hl : (content.length : Int) < Stream.positionLimit)
    (hoffset : offset.InBounds (.ofBytes content)) (w : Width) (e : Endianness) (n : Int) :
    (∀ signed, ∀ o ∈ Operator.all, ∀ template,
      ((Test.ofInteger offset w signed e o n).evaluate (.ofBytes content) template = .ok none ↔
        ¬ ∃ p, offset.resolve (.ofBytes content) 0 = .ok (some p) ∧
          Accepts w signed e o n content p) ∧
      ∀ p, offset.resolve (.ofBytes content) 0 = .ok (some p) →
        Accepts w signed e o n content p →
        (Test.ofInteger offset w signed e o n).evaluate (.ofBytes content) template =
          (Template.render (.ofBytes content) (some (p + w.octets)) template none).map some) ∧
    (∀ signed, ∃! m, w.Represents signed n m) ∧
    ((∀ b, b = w.encode e n ↔
        b.length = w.octets ∧ (e.order.value b : Int) ≡ n [ZMOD 2 ^ (8 * w.octets)]) ∧
      ∀ signed p, Accepts w signed e .equal n content p ↔
        0 ≤ p ∧ Stream.Found content p.toNat (w.encode e n)) ∧
    (∀ o, o.isEquality = true → ∀ template,
      (Test.ofInteger offset w true e o n).evaluate (.ofBytes content) template =
        (Test.ofInteger offset w false e o n).evaluate (.ofBytes content) template) ∧
    ((∀ p, offset.resolve (.ofBytes content) 0 = .ok (some p) →
        p < 0 ∨ content.length < p + w.octets) →
      ∀ signed o template message,
        (Test.ofInteger offset w signed e o n).evaluate (.ofBytes content) template ≠
          .ok (some message)) := by
  have hs := Stream.inMemory_ofBytes hl
  refine ⟨fun signed o ho template => ⟨?_, fun p hr h => ?_⟩, fun signed => ?_,
    ⟨fun b => Width.eq_encode_iff, fun signed p => accepts_equal_iff⟩, fun o ho template => ?_,
    fun hunread signed o template message => ?_⟩
  · exact Test.evaluate_eq_none_iff hs ho hoffset template
  · exact Test.evaluate_of_accepts hs ho hr (hoffset.limit p hr) h template
  · exact w.existsUnique_represents signed n
  · exact Test.evaluate_signed hs ho hoffset template
  · exact Test.evaluate_of_unread hs hoffset hunread template message

/-- The word behind a pointer is -2 in the middle order: it is less than what 2 ^ 32 + 1 stands for
when it is signed, and not when it is not. -/
theorem evaluate_iff_accepts_behind_pointer :
    let content : Bytes := [2, 9, 0xff, 0xff, 0xfe, 0xff]
    let pointer : Offset := .indirect 0 .byte .little false 0
    (content.length : Int) < Stream.positionLimit ∧ pointer.InBounds (.ofBytes content) ∧
      pointer.resolve (.ofBytes content) 0 = .ok (some 2) ∧
      (Test.ofInteger pointer .long true .middle .less (2 ^ 32 + 1)).evaluate (.ofBytes content)
        "less".toList = .ok (some "less".toList) ∧
      (Test.ofInteger pointer .long false .middle .less (2 ^ 32 + 1)).evaluate (.ofBytes content)
        "less".toList = .ok none := by
  intro content pointer
  have hl : (content.length : Int) < Stream.positionLimit := by decide
  have hr : pointer.resolve (.ofBytes content) 0 = .ok (some 2) := by rfl
  have hoffset : pointer.InBounds (.ofBytes content) := by
    refine ⟨?_, fun p hp => ?_⟩
    · rw [Offset.Overreaches]
      decide
    · rw [hr] at hp
      cases hp
      decide
  have hless : Operator.less ∈ Operator.all := by decide
  have hspec := evaluate_iff_accepts hl hoffset .long .middle (2 ^ 32 + 1)
  refine ⟨hl, hoffset, hr, ?_, ?_⟩
  · rw [(hspec.1 true .less hless _).2 2 hr (by decide)]
    rfl
  · rw [(hspec.1 false .less hless _).1, hr]
    rintro ⟨p, hp, h⟩
    cases hp
    exact absurd h (by decide)

end IntegerTest

end FileMagic
