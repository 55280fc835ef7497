import FileMagic.Proofs.Evaluation
import Mathlib.Tactic.Ring

/-! # Tests for a signature

Octets determine the integer they hold, and the other way round for a given number of octets.
So a test for equality with an integer at a fixed offset asks for certain octets there, as a
test for a literal does: it matches the content that has them at its offset, and no other
(`hit_of_asks`). -/

namespace FileMagic

namespace ByteOrder

theorem decodeLittle_cons (o : UInt8) (b : Bytes) :
    decodeLittle (o :: b) = decodeLittle b * 256 + o.toNat := rfl

theorem decodeLittle_lt (b : Bytes) : decodeLittle b < 256 ^ b.length := by
  induction b with
  | nil => exact Nat.one_pos
  | cons o rest ih =>
    have ho := o.toNat_lt
    rw [decodeLittle_cons, List.length_cons, Nat.pow_succ]
    omega

theorem decodeLittle_injective {a b : Bytes} (hl : a.length = b.length)
    (h : decodeLittle a = decodeLittle b) : a = b := by
  induction a generalizing b with
  | nil => exact (List.eq_nil_of_length_eq_zero hl.symm).symm
  | cons o a ih =>
    cases b with
    | nil => cases hl
    | cons o' b =>
      have ho := o.toNat_lt
      have ho' := o'.toNat_lt
      rw [decodeLittle_cons, decodeLittle_cons] at h
      have hrest := ih (Nat.succ.inj hl) (by omega)
      have hfirst : o = o' := UInt8.toNat_inj.mp (by omega)
      rw [hrest, hfirst]

/-- Most significant first is least significant first, backwards. -/
theorem decodeBig_eq (b : Bytes) : decodeBig b = decodeLittle b.reverse := by
  rw [decodeLittle, List.foldr_reverse]
  rfl

theorem decodeWords_injective {a b : Bytes} {high high' : Nat} (hl : a.length = b.length)
    (h : decodeWords high a = decodeWords high' b) : high = high' ∧ a = b := by
  induction high, a using decodeWords.induct generalizing high' b with
  | case1 high o p rest ih =>
    match b, hl with
    | o' :: p' :: rest', hl =>
      rw [decodeWords, decodeWords] at h
      obtain ⟨hword, rfl⟩ := ih (by simpa using hl) h
      have hlt := decodeLittle_lt [o, p]
      have hlt' := decodeLittle_lt [o', p']
      simp only [List.length_cons, List.length_nil] at hlt hlt'
      have hpair := decodeLittle_injective (a := [o, p]) (b := [o', p']) rfl (by omega)
      cases hpair
      exact ⟨by omega, rfl⟩
  | case2 high rest hshort =>
    match rest, b, hl with
    | [], [], _ => simpa [decodeWords, decodeLittle] using h
    | [o], [o'], _ =>
      have ho := o.toNat_lt
      have ho' := o'.toNat_lt
      simp only [decodeWords, decodeLittle, List.foldr_cons, List.foldr_nil, List.length_cons,
        List.length_nil] at h
      have hfirst : o = o' := UInt8.toNat_inj.mp (by omega)
      exact ⟨by omega, by rw [hfirst]⟩
    | o :: p :: rest, _, _ => exact (hshort o p rest rfl).elim

theorem decodeWords_lt (high : Nat) (b : Bytes) :
    decodeWords high b < (high + 1) * 256 ^ b.length := by
  induction high, b using decodeWords.induct with
  | case1 high o p rest ih =>
    have hpair := decodeLittle_lt [o, p]
    simp only [List.length_cons, List.length_nil] at hpair
    rw [decodeWords, List.length_cons, List.length_cons]
    calc decodeWords (high * 65536 + decodeLittle [o, p]) rest
        < (high * 65536 + decodeLittle [o, p] + 1) * 256 ^ rest.length := ih
      _ ≤ (high + 1) * 65536 * 256 ^ rest.length := Nat.mul_le_mul_right _ (by omega)
      _ = (high + 1) * 256 ^ (rest.length + 1 + 1) := by rw [Nat.pow_add, Nat.pow_add]; ring
  | case2 high rest hshort =>
    have hrest := decodeLittle_lt rest
    rw [decodeWords, Nat.succ_mul]
    · omega
    · exact hshort

/-- Octets determine the number they hold to be below a power of 256. -/
theorem decode_lt (order : ByteOrder) (b : Bytes) : order.decode b < 256 ^ b.length := by
  cases order with
  | little => exact decodeLittle_lt b
  | big =>
    have h := decodeLittle_lt b.reverse
    rwa [List.length_reverse, ← decodeBig_eq] at h
  | middle =>
    have h := decodeWords_lt 0 b
    rwa [Nat.zero_add, Nat.one_mul] at h

/-- Different octets hold different numbers. -/
theorem decode_injective (order : ByteOrder) {a b : Bytes} (hl : a.length = b.length)
    (h : order.decode a = order.decode b) : a = b := by
  cases order with
  | little => exact decodeLittle_injective hl h
  | big =>
    have hbig : decodeLittle a.reverse = decodeLittle b.reverse := by
      rw [← decodeBig_eq, ← decodeBig_eq]
      exact h
    exact List.reverse_inj.mp (decodeLittle_injective (by simpa using hl) hbig)
  | middle => exact (decodeWords_injective hl h).2

end ByteOrder

namespace Width

theorem pow_octets (w : Width) : 256 ^ w.octets = 2 ^ w.bits := by cases w <;> rfl

/-- The number below the bound of the width that is congruent to an integer. -/
def residue (w : Width) (n : Int) : Nat := (n % 2 ^ w.bits).toNat

theorem residue_cast (w : Width) (n : Int) : (w.residue n : Int) = n % 2 ^ w.bits :=
  Int.toNat_of_nonneg (Int.emod_nonneg n (Int.ne_of_gt (Int.pow_pos (by decide))))

theorem residue_lt (w : Width) (n : Int) : w.residue n < 256 ^ w.octets := by
  have h : (w.residue n : Int) < 2 ^ w.bits := by
    rw [residue_cast]
    exact Int.emod_lt_of_pos n (Int.pow_pos (by decide))
  rw [w.pow_octets]
  exact_mod_cast h

/-- Numbers that fit in the width are told apart, signed or not. -/
theorem wrap_injective {w : Width} {signed : Bool} {m n : Nat} (hm : m < 2 ^ w.bits)
    (hn : n < 2 ^ w.bits) (h : w.wrap signed m = w.wrap signed n) : m = n := by
  have hm' : (m : Int) % 2 ^ w.bits = m := Int.emod_eq_of_lt (by omega) (by exact_mod_cast hm)
  have hn' : (n : Int) % 2 ^ w.bits = n := Int.emod_eq_of_lt (by omega) (by exact_mod_cast hn)
  have hm'' : (m : Int) < 2 ^ w.bits := by exact_mod_cast hm
  have hn'' : (n : Int) < 2 ^ w.bits := by exact_mod_cast hn
  simp only [wrap, hm', hn'] at h
  split at h <;> split at h <;> omega

theorem decode_injective {w : Width} {signed : Bool} {e : Endianness} {a b : Bytes}
    (ha : a.length = w.octets) (hb : b.length = w.octets)
    (h : w.decode signed e a = w.decode signed e b) : a = b := by
  have hlt := e.order.decode_lt a
  have hlt' := e.order.decode_lt b
  rw [ha, pow_octets] at hlt
  rw [hb, pow_octets] at hlt'
  exact e.order.decode_injective (ha.trans hb.symm) (wrap_injective hlt hlt' h)

/-- The highest bit of a number that fits in the width makes it negative. -/
theorem wrap_eq_of_testBit (w : Width) (signed : Bool) {n : Nat} (h : n < 2 ^ w.bits) :
    w.wrap signed n = if signed && n.testBit (w.bits - 1) then (n : Int) - 2 ^ w.bits else n := by
  have hmod : (n : Int) % 2 ^ w.bits = n := Int.emod_eq_of_lt (by omega) (by exact_mod_cast h)
  have hbit : n.testBit (w.bits - 1) = decide ((2 : Int) ^ (w.bits - 1) ≤ n) := by
    by_cases hlow : n < 2 ^ (w.bits - 1)
    · rw [Nat.testBit_lt_two_pow hlow, eq_comm, decide_eq_false_iff_not, Int.not_le]
      exact_mod_cast hlow
    · have hhigh : n < 2 ^ (w.bits - 1 + 1) := by cases w <;> exact h
      rw [Nat.testBit_of_two_pow_le_and_two_pow_add_one_gt (Nat.not_lt.mp hlow) hhigh, eq_comm,
        decide_eq_true_iff]
      exact_mod_cast Nat.not_lt.mp hlow
  simp only [wrap, hmod, hbit]

end Width

/-! Pointers and conversions look at the highest bit themselves; they read the same integers. -/

theorem Offset.target_eq_decode {w : Width} {b : Bytes} (hb : b.length = w.octets)
    (e : Endianness) (signed : Bool) : target w e signed b = w.decode signed e b := by
  have hlt := e.order.decode_lt b
  rw [hb, w.pow_octets] at hlt
  rw [Width.decode, w.wrap_eq_of_testBit signed hlt, Width.bits, Nat.mul_comm]
  rfl

theorem Template.integerOf_eq_decode {b : Bytes} (hb : b.length = integerWidth.octets)
    (signed : Bool) : integerOf signed b = integerWidth.decode signed .little b := by
  have hlt := ByteOrder.little.decode_lt b
  rw [hb, integerWidth.pow_octets] at hlt
  exact (integerWidth.wrap_eq_of_testBit signed hlt).symm

namespace Value

theorem lexicographic_eq_iff (a b : List Nat) : lexicographic a b = .eq ↔ a = b := by
  induction a generalizing b with
  | nil => cases b <;> simp [lexicographic]
  | cons m a ih =>
    cases b with
    | nil => simp [lexicographic]
    | cons n b => simp [lexicographic, Ordering.then_eq_eq, ih]

theorem compare_int (m n : Int) : compare (.int m) (.int n) .equal = .ok (decide (m = n)) := by
  simp [compare, order?, Operator.holds]

theorem compare_bytes (a b : Bytes) :
    compare (.bytes a) (.bytes b) .equal = .ok (decide (a = b)) := by
  have hmap : a.map UInt8.toNat = b.map UInt8.toNat ↔ a = b :=
    List.map_inj_right fun _ _ h => UInt8.toNat_inj.mp h
  simp [compare, order?, Operator.holds, lexicographic_eq_iff, hmap]

end Value

namespace Stream

/-- Whether octets are found at an offset of content. -/
def Found (content : Bytes) (offset : Nat) (octets : Bytes) : Prop :=
  (content.drop offset).take octets.length = octets

instance (content : Bytes) (offset : Nat) (octets : Bytes) :
    Decidable (Found content offset octets) := inferInstanceAs (Decidable (_ = _))

end Stream

namespace Test

/-- The test is for equality with these octets at this offset. -/
def asks (offset : Nat) (octets : Bytes) : Test → Bool
  | .integer ⟨.fixed o, w, signed, e, .equal, some n⟩ =>
    o = offset && octets.length = w.octets && n = w.decode signed e octets
  | .literal ⟨.fixed o, .equal, b⟩ => o = offset && b = octets
  | _ => false

variable {s : Stream}

theorem readExactly_fixed (hs : s.InMemory) {offset size : Nat}
    (ho : (offset : Int) < Stream.positionLimit) (hsize : (size : Int) < Stream.positionLimit) :
    readExactly s (.fixed offset) size =
      .ok (if ((s.content.drop offset).take size).length ≠ size then none
        else some ((offset : Int), (s.content.drop offset).take size)) := by
  have hnot : ¬ (offset : Int) < 0 := by omega
  rw [readExactly, Offset.resolve, ok_bind, Int.zero_add]
  simp only [hs.readAt_of_not_beyond (Stream.not_beyond ho hsize), ok_bind, Stream.rest,
    if_neg hnot, Int.toNat_natCast, pure_eq_ok]

/-- A test that tells the octets it asks for from all others. -/
theorem compareDecoded_fixed (hs : s.InMemory) {offset : Nat} {octets : Bytes}
    {decode : Bytes → Value} {expected : Value} (ho : (offset : Int) < Stream.positionLimit)
    (hsize : (octets.length : Int) < Stream.positionLimit)
    (hcompare : ∀ raw, raw.length = octets.length →
      (decode raw).compare expected .equal = .ok (decide (raw = octets))) :
    compareDecoded s (.fixed offset) octets.length decode expected .equal (fun _ => none) =
      .ok (if Stream.Found s.content offset octets then
        some ⟨some ((offset : Int) + octets.length), none⟩ else none) := by
  rw [compareDecoded, readExactly_fixed hs ho hsize, ProbeFault.ofRead_ok, ok_bind]
  by_cases hfound : Stream.Found s.content offset octets
  · have hraw : (s.content.drop offset).take octets.length = octets := hfound
    simp [hraw, hcompare, hfound]
  · have hne : (s.content.drop offset).take octets.length ≠ octets := hfound
    by_cases hlen : ((s.content.drop offset).take octets.length).length = octets.length
    · simp only [hlen, ne_eq, not_true, if_false, hcompare _ hlen, ok_bind, hne, decide_false,
        Bool.false_eq_true, hfound]
      rfl
    · simp only [hlen, ne_eq, not_false_eq_true, if_true, if_neg hfound]
      rfl

theorem hit_of_asks (hs : s.InMemory) {t : Test} {offset : Nat} {octets : Bytes}
    (h : t.asks offset octets = true) (ho : (offset : Int) < Stream.positionLimit)
    (hsize : (octets.length : Int) < Stream.positionLimit) :
    t.hit s = .ok (if Stream.Found s.content offset octets then
      some ⟨some ((offset : Int) + octets.length), none⟩ else none) := by
  unfold asks at h
  split at h
  · next o w signed e n =>
    simp only [Bool.and_eq_true, decide_eq_true_eq] at h
    obtain ⟨⟨rfl, hw⟩, rfl⟩ := h
    rw [hit, ← hw]
    refine compareDecoded_fixed hs ho hsize fun raw hraw => ?_
    have hinj : w.decode signed e raw = w.decode signed e octets ↔ raw = octets :=
      ⟨Width.decode_injective (hraw.trans hw) hw, fun h => h ▸ rfl⟩
    simp only [Value.ofInt?, Value.compare_int, hinj]
  · next o b =>
    simp only [Bool.and_eq_true, decide_eq_true_eq] at h
    obtain ⟨rfl, rfl⟩ := h
    exact compareDecoded_fixed hs ho hsize fun raw _ => Value.compare_bytes raw b
  · cases h

end Test
end FileMagic
