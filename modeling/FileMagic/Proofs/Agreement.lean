import FileMagic.Proofs.Exhausted
import FileMagic.Proofs.Pointer

/-! # Pointers, tests and conversions read the same integers

At a position there are all the octets of a width or not, and if they are, they are those of exactly
one integer of the width (`integerAt?_eq_some_iff`). A pointer leads on from this integer, a test
for equality matches it and no other, and a conversion writes it in decimal; where octets are
missing the pointer leads nowhere, no test matches and nothing is written. So what one of them gives
is known from what another one gives (`decoders_agree`). -/

namespace FileMagic

namespace Text

theorem ofNat_injective {m n : Nat} (h : ofNat m = ofNat n) : m = n := by
  have hread := congrArg (fun digits => Nat.ofDigitChars 10 digits 0) h
  simpa only [ofNat, Nat.ofDigitChars_ten_toDigits] using hread

theorem minus_not_mem_ofNat (n : Nat) : '-' ∉ ofNat n := by
  have hdigit : ∀ d < 10, Nat.digitChar d ≠ '-' := by decide
  intro hmem
  obtain ⟨d, hd, hminus⟩ := Segment.digit_of_mem_toDigits (by decide) hmem
  exact hdigit d hd hminus

/-- Integers are told apart by their decimal forms. -/
theorem ofInt_injective {m n : Int} (h : ofInt m = ofInt n) : m = n := by
  have hplain : ∀ (k : Nat) (t : Text), ofNat k ≠ '-' :: t := fun k t heq =>
    minus_not_mem_ofNat k (heq ▸ List.mem_cons_self)
  unfold ofInt sign at h
  by_cases hm : m < 0
  · by_cases hn : n < 0
    · rw [if_pos hm, if_pos hn] at h
      have habs := ofNat_injective (List.append_cancel_left h)
      omega
    · rw [if_pos hm, if_neg hn] at h
      exact absurd h.symm (hplain _ _)
  · by_cases hn : n < 0
    · rw [if_neg hm, if_pos hn] at h
      exact absurd h (hplain _ _)
    · rw [if_neg hm, if_neg hn] at h
      have habs := ofNat_injective (List.append_cancel_left h)
      omega

theorem ofInt_ne_nil (n : Int) : ofInt n ≠ [] := by
  rw [ofInt, ofNat]
  exact List.append_ne_nil_of_right_ne_nil _ Nat.toDigits_ne_nil

end Text

variable {content : Bytes} {p x : Int} {w : Width} {signed : Bool} {e : Endianness}

theorem Width.Holds.wrap_eq_self (h : w.Holds signed x) : w.wrap signed x = x :=
  (w.holds_wrap signed x).eq_of_congruent h (w.wrap_congruent signed x)

theorem accepts_equal_iff_integerAt? (h : w.Holds signed x) :
    IntegerTest.Accepts w signed e .equal x content p ↔
      integerAt? content p w signed e = some x := by
  rw [IntegerTest.accepts_iff, Operator.Relates, h.wrap_eq_self, integerAt?, ← and_assoc]
  split
  · next hwhole => rw [and_iff_right hwhole, Option.some.injEq]
  · next hshort => exact iff_of_false (fun ha => hshort ha.1) (Option.some_ne_none x).symm

theorem accepts_any_iff_integerAt? (signed : Bool) :
    IntegerTest.Accepts w signed e .any x content p ↔
      (integerAt? content p w signed e).isSome := by
  rw [IntegerTest.accepts_iff, integerAt?, ← and_assoc]
  split
  · next hwhole => exact iff_of_true ⟨hwhole, trivial⟩ rfl
  · next hshort => exact iff_of_false (fun ha => hshort ha.1) Bool.false_ne_true

/-- The integer at a position is the one that its octets encode. -/
theorem integerAt?_eq_some_iff (h : w.Holds signed x) :
    integerAt? content p w signed e = some x ↔
      0 ≤ p ∧ Stream.Found content p.toNat (w.encode e x) := by
  rw [← accepts_equal_iff_integerAt? h, IntegerTest.accepts_equal_iff]

/-! ## What each of them makes of the integer -/

namespace Test

/-- The outcome of a test at a fixed position, with nothing to render. -/
theorem evaluate_fixed (hl : (content.length : Int) < Stream.positionLimit)
    (hp : p < Stream.positionLimit) {o : Operator} (ho : o ∈ Operator.all) (x : Int) :
    (ofInteger (.fixed p) w signed e o x).evaluate (.ofBytes content) [] =
      .ok (if IntegerTest.Accepts w signed e o x content p then some [] else none) := by
  have hs := Stream.inMemory_ofBytes hl
  have hr : (Offset.fixed p).resolve (.ofBytes content) 0 = .ok (some p) := by
    rw [Offset.resolve, Int.zero_add]
  have hbounds : (Offset.fixed p).InBounds (.ofBytes content) := by
    refine ⟨by rw [Offset.Overreaches]; exact not_false, fun q hq => ?_⟩
    rw [hr] at hq
    cases hq
    exact hp
  by_cases h : IntegerTest.Accepts w signed e o x content p
  · rw [evaluate_of_accepts hs ho hr hp h, if_pos h]
    rfl
  · have hnot : ¬ ∃ q, (Offset.fixed p).resolve (.ofBytes content) 0 = .ok (some q) ∧
        IntegerTest.Accepts w signed e o x content q := by
      rintro ⟨q, hq, ha⟩
      rw [hr] at hq
      cases hq
      exact h ha
    rw [evaluate_of_not_accepts hs ho hbounds hnot, if_neg h]

/-- The test that accepts any integer, whatever it was made with. -/
abbrev ofAny (offset : Offset) (w : Width) (signed : Bool) (e : Endianness)
    (expected : Option Int) : Test :=
  .integer (.make offset w signed e .any expected)

theorem evaluate_ofAny (s : Stream) (offset : Offset) (expected : Option Int) (template : Text) :
    (ofAny offset w signed e expected).evaluate s template =
      (ofInteger offset w signed e .any 0).evaluate s template := rfl

theorem evaluate_equal_iff (hl : (content.length : Int) < Stream.positionLimit)
    (hp : p < Stream.positionLimit) (h : w.Holds signed x) :
    (ofInteger (.fixed p) w signed e .equal x).evaluate (.ofBytes content) [] = .ok (some []) ↔
      integerAt? content p w signed e = some x := by
  rw [evaluate_fixed hl hp (by decide), ← accepts_equal_iff_integerAt? h]
  split
  · next ha => exact iff_of_true rfl ha
  · next ha => exact iff_of_false (by simp) ha

theorem evaluate_ofAny_eq_none_iff (hl : (content.length : Int) < Stream.positionLimit)
    (hp : p < Stream.positionLimit) (expected : Option Int) :
    (ofAny (.fixed p) w signed e expected).evaluate (.ofBytes content) [] = .ok none ↔
      integerAt? content p w signed e = none := by
  rw [evaluate_ofAny, evaluate_fixed hl hp (by decide), ← Option.not_isSome_iff_eq_none,
    ← accepts_any_iff_integerAt? (x := 0)]
  split
  · next ha => exact iff_of_false (by simp) (not_not.mpr ha)
  · next ha => exact iff_of_true rfl ha

end Test

namespace Template

/-- The conversion of an integer, with a sign or without. -/
def decimalTemplate (signed : Bool) : Text := ['%', if signed then 'd' else 'u']

theorem render_decimal (hl : (content.length : Int) < Stream.positionLimit)
    (hp : p < Stream.positionLimit) (signed : Bool) :
    render (.ofBytes content) (some p) (decimalTemplate signed) none =
      .ok ((integerAt? content p .long signed .little).elim [] Text.ofInt) := by
  have hs := Stream.inMemory_ofBytes hl
  have hkind : ConversionKind.ofLetter? (if signed then 'd' else 'u') = some (.decimal signed) := by
    cases signed <;> rfl
  have hsigned : decide (ConversionKind.decimal signed = .decimal true) = signed := by
    cases signed <;> rfl
  rw [render, decimalTemplate, integerAt?]
  by_cases hwhole : 0 ≤ p ∧ p + Width.long.octets ≤ content.length
  · have hfrom : (Stream.ofBytes content).rest p = content.drop p.toNat :=
      Stream.rest_of_nonneg hwhole.1
    have hlength : ((content.drop p.toNat).take integerWidth.octets).length =
        integerWidth.octets := by
      rw [← hfrom]
      exact (Stream.length_take_rest_iff (by decide)).mpr hwhole
    have hrest : (Stream.ofBytes content).rest p =
        (content.drop p.toNat).take integerWidth.octets ++
          (content.drop p.toNat).drop integerWidth.octets := by
      rw [List.take_append_drop, hfrom]
    have hconversion := renderConversion_integer hs hp (.decimal signed) ⟨by simp, by simp⟩ hlength
      hrest rfl
    rw [renderPieces_letter hkind hconversion, if_pos hwhole, hsigned]
    exact congrArg Except.ok (List.append_nil _)
  · have hshort : ((Stream.ofBytes content).rest p).length < 4 := by
      refine length_rest_lt_four_iff.mpr ?_
      rw [not_and_or, Int.not_le, Int.not_le] at hwhole
      exact hwhole
    have hconversion : renderConversion (.ofBytes content) none (some p)
        (bareConversion (.decimal signed)) = _ := renderInteger_short hs hp hshort _
    rw [renderPieces_letter hkind hconversion, if_neg hwhole]
    rfl

end Template

/-- Pointers, tests and conversions agree on the integers that they read, and on where there is
none to read; it is the integer whose octets are there. -/
theorem decoders_agree (hl : (content.length : Int) < Stream.positionLimit) :
    (∀ (w : Width) (signed : Bool) (e : Endianness) (r v k : Int),
      r + v < Stream.positionLimit →
      (∀ x, w.Holds signed x →
        ((Offset.indirect v w e signed k).resolve (.ofBytes content) r = .ok (some (x + k)) ↔
          (Test.ofInteger (.fixed (r + v)) w signed e .equal x).evaluate (.ofBytes content) [] =
            .ok (some [])) ∧
        ((Offset.indirect v w e signed k).resolve (.ofBytes content) r = .ok (some (x + k)) ↔
          0 ≤ r + v ∧ Stream.Found content (r + v).toNat (w.encode e x))) ∧
      ∀ expected,
        (Offset.indirect v w e signed k).resolve (.ofBytes content) r = .ok none ↔
          (Test.ofAny (.fixed (r + v)) w signed e expected).evaluate (.ofBytes content) [] =
            .ok none) ∧
    ∀ (signed : Bool) (p : Int), p < Stream.positionLimit →
      (∀ x, Width.long.Holds signed x →
        (Template.render (.ofBytes content) (some p) (Template.decimalTemplate signed) none =
            .ok (Text.ofInt x) ↔
          (Test.ofInteger (.fixed p) .long signed .little .equal x).evaluate (.ofBytes content) [] =
            .ok (some []))) ∧
      ∀ expected,
        Template.render (.ofBytes content) (some p) (Template.decimalTemplate signed) none =
            .ok [] ↔
          (Test.ofAny (.fixed p) .long signed .little expected).evaluate (.ofBytes content) [] =
            .ok none := by
  refine ⟨fun w signed e r v k hp => ⟨fun x hx => ?_, fun expected => ?_⟩,
    fun signed p hp => ⟨fun x hx => ?_, fun expected => ?_⟩⟩
  · have hresolve : (Offset.indirect v w e signed k).resolve (.ofBytes content) r =
        .ok (some (x + k)) ↔ integerAt? content (r + v) w signed e = some x := by
      rw [Offset.resolve_indirect_integerAt? hl hp, Except.ok.injEq, Option.map_eq_some_iff]
      constructor
      · rintro ⟨y, hy, hsum⟩
        have hsame : y = x := by omega
        rw [hy, hsame]
      · intro h
        exact ⟨x, h, rfl⟩
    exact ⟨hresolve.trans (Test.evaluate_equal_iff hl hp hx).symm,
      hresolve.trans (integerAt?_eq_some_iff hx)⟩
  · rw [Offset.resolve_indirect_integerAt? hl hp, Except.ok.injEq, Option.map_eq_none_iff,
      Test.evaluate_ofAny_eq_none_iff hl hp]
  · rw [Template.render_decimal hl hp, Test.evaluate_equal_iff hl hp hx, Except.ok.injEq]
    cases integerAt? content p .long signed .little with
    | none => exact iff_of_false (Text.ofInt_ne_nil x).symm (Option.some_ne_none x).symm
    | some y => exact ⟨fun h => congrArg some (Text.ofInt_injective h), fun h => by cases h; rfl⟩
  · rw [Template.render_decimal hl hp, Test.evaluate_ofAny_eq_none_iff hl hp, Except.ok.injEq]
    cases integerAt? content p .long signed .little with
    | none => exact iff_of_true rfl rfl
    | some y => exact iff_of_false (Text.ofInt_ne_nil y) (Option.some_ne_none y)

/-- Four octets that are -2 with a sign, read as a pointer from the position behind them, tested and
converted; one position further on there are three. -/
theorem decoders_agree_below_zero :
    let content : Bytes := [7, 0xfe, 0xff, 0xff, 0xff]
    let negative : Test := .ofInteger (.fixed 1) .long true .little .equal (-2)
    (content.length : Int) < Stream.positionLimit ∧ Width.long.Holds true (-2) ∧
      negative.evaluate (.ofBytes content) [] = .ok (some []) ∧
      (Offset.indirect (-4) .long .little true 3).resolve (.ofBytes content) 5 = .ok (some 1) ∧
      Template.render (.ofBytes content) (some 1) "%d".toList none = .ok "-2".toList ∧
      Template.render (.ofBytes content) (some 2) "%u".toList none = .ok [] ∧
      (Offset.indirect 2 .long .big false 0).resolve (.ofBytes content) 0 = .ok none := by
  intro content negative
  have hl : (content.length : Int) < Stream.positionLimit := by decide
  have hrange : Width.long.Holds true (-2) := by
    unfold Width.Holds
    decide
  obtain ⟨hpointer, hconversion⟩ := decoders_agree hl
  obtain ⟨hleads, -⟩ := hpointer .long true .little 5 (-4) 3 (by decide)
  obtain ⟨-, hnowhere⟩ := hpointer .long false .big 0 2 0 (by decide)
  obtain ⟨hwritten, -⟩ := hconversion true 1 (by decide)
  obtain ⟨-, hempty⟩ := hconversion false 2 (by decide)
  have hresolve := (hleads (-2) hrange).2.mpr (by decide)
  have hmatch := (hleads (-2) hrange).1.mp hresolve
  exact ⟨hl, hrange, hmatch, hresolve, (hwritten (-2) hrange).mpr hmatch,
    (hempty none).mpr rfl, (hnowhere none).mpr rfl⟩

end FileMagic
