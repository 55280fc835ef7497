import FileMagic.Proofs.Record
import Mathlib.Algebra.BigOperators.Intervals
import Mathlib.Algebra.BigOperators.Ring.Finset
import Mathlib.Data.Int.ModEq

/-! # What octets count

In every byte order the octets of a number are its digits to base 256, and an order only says which
octet counts which power (`ByteOrder.place`): decoding adds up what they count (`decode_eq_value`).
Encoding is undone by it (`decode_encode`), so that as many octets as a width has are the encoding
of exactly one number below its bound. -/

namespace FileMagic

namespace ByteOrder

/-- The power of 256 that the octet at `i` of `n` octets counts. Words of two octets are most
significant first, and the octets in them least significant first. -/
def place : ByteOrder → Nat → Nat → Nat
  | .little, _, i => i
  | .big, n, i => n - 1 - i
  | .middle, n, i => n - 2 - 2 * (i / 2) + i % 2

def value (order : ByteOrder) (b : Bytes) : Nat :=
  ∑ i ∈ Finset.range b.length, (b.getD i 0).toNat * 256 ^ order.place b.length i

theorem decodeLittle_eq_value (b : Bytes) : decodeLittle b = value .little b := by
  induction b with
  | nil => rfl
  | cons o rest ih =>
    rw [decodeLittle_cons, ih, value, value, List.length_cons, Finset.sum_range_succ']
    congr 1
    · rw [Finset.sum_mul]
      refine Finset.sum_congr rfl fun i _ => ?_
      rw [List.getD_cons_succ, place, place, Nat.pow_succ, Nat.mul_assoc]
    · rw [List.getD_cons_zero, place, Nat.pow_zero, Nat.mul_one]

theorem decodeBig_eq_value (b : Bytes) : decodeBig b = value .big b := by
  rw [decodeBig_eq, decodeLittle_eq_value, value, value, List.length_reverse,
    ← Finset.sum_range_reflect]
  refine Finset.sum_congr rfl fun i hi => ?_
  have hlt : i < b.length := Finset.mem_range.mp hi
  have hback : b.length - 1 - (b.length - 1 - i) = i := by omega
  have hget : b.reverse.getD (b.length - 1 - i) 0 = b.getD i 0 := by
    rw [List.getD_eq_getElem?_getD, List.getElem?_reverse (by omega), hback,
      List.getD_eq_getElem?_getD]
  rw [hget]
  rfl

theorem decodeWords_eq_value (high : Nat) (b : Bytes) :
    decodeWords high b = high * 256 ^ b.length + value .middle b := by
  induction high, b using decodeWords.induct with
  | case1 high o p rest ih =>
    have hshift : ∀ i, place .middle (rest.length + 2) (i + 2) = place .middle rest.length i := by
      intro i
      simp only [place]
      omega
    have hsum : value .middle (o :: p :: rest) =
        value .middle rest + p.toNat * 256 ^ (rest.length + 1) + o.toNat * 256 ^ rest.length := by
      rw [value, List.length_cons, List.length_cons, Finset.sum_range_succ',
        Finset.sum_range_succ', value]
      simp only [List.getD_cons_succ, List.getD_cons_zero, Nat.add_assoc, hshift, Nat.reduceAdd]
      rfl
    rw [decodeWords, ih, hsum, decodeLittle_cons, decodeLittle_cons]
    simp only [decodeLittle, List.foldr_nil, List.length_cons]
    ring
  | case2 high rest hshort =>
    rcases rest with _ | ⟨o, _ | ⟨p, rest⟩⟩
    · simp [decodeWords, decodeLittle, value]
    · simp [decodeWords, decodeLittle, value, place]
    · exact (hshort o p rest rfl).elim

/-- Decoding adds up what the octets count. -/
theorem decode_eq_value (order : ByteOrder) (b : Bytes) : order.decode b = order.value b := by
  cases order with
  | little => exact decodeLittle_eq_value b
  | big => exact decodeBig_eq_value b
  | middle =>
    have h := decodeWords_eq_value 0 b
    rwa [Nat.zero_mul, Nat.zero_add] at h

/-- Most significant first is least significant first, backwards. -/
theorem encodeBig_eq (size n : Nat) : encodeBig size n = (encodeLittle size n).reverse := by
  have hlittle : encodeLittle size n =
      (List.range size).map fun i => UInt8.ofNat (n / 256 ^ i % 256) := by
    induction size generalizing n with
    | zero => rfl
    | succ size ih =>
      rw [encodeLittle_succ, ih, List.range_succ_eq_map, List.map_cons, List.map_map, Nat.pow_zero,
        Nat.div_one]
      simp only [Function.comp_def, Nat.pow_succ', Nat.div_div_eq_div_mul]
  refine List.ext_getElem (by simp [encodeBig]) fun i hi hi' => ?_
  have hlt : i < size := by simpa [encodeBig] using hi
  simp [encodeBig, hlittle, List.getElem_reverse]

theorem encodeWords_succ (words n : Nat) : encodeWords (words + 1) n =
    encodeLittle 2 (n / 65536 ^ words % 65536) ++ encodeWords words n := by
  have hplace : ∀ i, words + 1 - 1 - Nat.succ i = words - 1 - i := by omega
  rw [encodeWords, List.range_succ_eq_map, List.flatMap_cons, List.flatMap_map, encodeWords]
  simp only [hplace]
  rfl

theorem decodeWords_encodeWords (high words n : Nat) :
    decodeWords high (encodeWords words n) = high * 65536 ^ words + n % 65536 ^ words := by
  induction words generalizing high with
  | zero => simp [encodeWords, decodeWords, decodeLittle, Nat.mod_one]
  | succ words ih =>
    have hword : decodeLittle (encodeLittle 2 (n / 65536 ^ words % 65536)) =
        n / 65536 ^ words % 65536 :=
      decodeLittle_encodeLittle (Nat.mod_lt _ (by decide))
    have hsplit : n % 65536 ^ (words + 1) =
        n % 65536 ^ words + 65536 ^ words * (n / 65536 ^ words % 65536) := by
      rw [Nat.pow_succ, Nat.mod_mul]
    rw [encodeWords_succ]
    refine Eq.trans (b := decodeWords (high * 65536 +
      decodeLittle (encodeLittle 2 (n / 65536 ^ words % 65536))) (encodeWords words n)) rfl ?_
    rw [hword, ih, hsplit]
    ring

theorem length_encodeWords (words n : Nat) : (encodeWords words n).length = 2 * words := by
  induction words with
  | zero => rfl
  | succ words ih =>
    rw [encodeWords_succ, List.length_append, length_encodeLittle, ih]
    omega

theorem length_encode {order : ByteOrder} {size : Nat} (h : order = .middle → size % 2 = 0)
    (n : Nat) : (order.encode size n).length = size := by
  cases order with
  | little => exact length_encodeLittle size n
  | big => rw [encode, encodeBig_eq, List.length_reverse, length_encodeLittle]
  | middle =>
    rw [encode, length_encodeWords]
    exact Nat.mul_div_cancel' (Nat.dvd_of_mod_eq_zero (h rfl))

/-- Octets that are written are read back. -/
theorem decode_encode {order : ByteOrder} {size n : Nat} (h : order = .middle → size % 2 = 0)
    (hn : n < 256 ^ size) : order.decode (order.encode size n) = n := by
  cases order with
  | little => exact decodeLittle_encodeLittle hn
  | big =>
    rw [decode, encode, decodeBig_eq, encodeBig_eq, List.reverse_reverse]
    exact decodeLittle_encodeLittle hn
  | middle =>
    have hsize : 2 * (size / 2) = size := Nat.mul_div_cancel' (Nat.dvd_of_mod_eq_zero (h rfl))
    have hwords : n < 65536 ^ (size / 2) := by
      rwa [← hsize, Nat.pow_mul] at hn
    rw [decode, encode, decodeWords_encodeWords, Nat.zero_mul, Nat.zero_add,
      Nat.mod_eq_of_lt hwords]

end ByteOrder

namespace Width

/-- A single octet is the same in every order. -/
def order (w : Width) (e : Endianness) : ByteOrder := if w = .byte then .little else e.order

/-- The octets of an integer of any size. -/
def encode (w : Width) (e : Endianness) (n : Int) : Bytes :=
  (w.order e).encode w.octets (w.residue n)

theorem octets_even (w : Width) (e : Endianness) : w.order e = .middle → w.octets % 2 = 0 := by
  cases w <;> cases e <;> decide

theorem length_encode (w : Width) (e : Endianness) (n : Int) : (w.encode e n).length = w.octets :=
  ByteOrder.length_encode (w.octets_even e) _

theorem decode_order {w : Width} {e : Endianness} {b : Bytes} (h : b.length = w.octets) :
    (w.order e).decode b = e.order.decode b := by
  by_cases hw : w = .byte
  · rw [hw] at h
    obtain ⟨o, rfl⟩ := List.length_eq_one_iff.mp h
    rw [order, if_pos hw]
    cases e <;> simp [Endianness.order, ByteOrder.decode, ByteOrder.decodeLittle,
      ByteOrder.decodeBig, ByteOrder.decodeWords]
  · rw [order, if_neg hw]

theorem value_encode (w : Width) (e : Endianness) (n : Int) :
    e.order.value (w.encode e n) = w.residue n := by
  rw [← ByteOrder.decode_eq_value, ← decode_order (w.length_encode e n), encode,
    ByteOrder.decode_encode (w.octets_even e) (w.residue_lt n)]

/-- As many octets as the width has, counting up to a number congruent to an integer, are the
octets of this integer. -/
theorem eq_encode_iff {w : Width} {e : Endianness} {n : Int} {b : Bytes} :
    b = w.encode e n ↔ b.length = w.octets ∧ (e.order.value b : Int) ≡ n [ZMOD 2 ^ w.bits] := by
  constructor
  · rintro rfl
    refine ⟨w.length_encode e n, ?_⟩
    rw [value_encode, residue_cast]
    exact Int.mod_modEq n _
  · rintro ⟨hlength, hvalue⟩
    have hlt := e.order.decode_lt b
    rw [ByteOrder.decode_eq_value, hlength, w.pow_octets] at hlt
    have hsame : (e.order.value b : Int) = w.residue n := by
      rw [residue_cast, ← hvalue, Int.emod_eq_of_lt (Int.natCast_nonneg _) (by exact_mod_cast hlt)]
    refine e.order.decode_injective (hlength.trans (w.length_encode e n).symm) ?_
    rw [ByteOrder.decode_eq_value, ByteOrder.decode_eq_value, value_encode]
    exact_mod_cast hsame

end Width
end FileMagic
