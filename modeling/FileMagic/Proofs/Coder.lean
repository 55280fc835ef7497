import FileMagic.Proofs.PlaceValue

/-! # Coders undo each other

A coder writes every number below the bound of a size in as many octets, and reads it back from
them; what it reads from octets it writes as the same octets (`encode_decode`). Other sizes, and
numbers that do not fit, are refused and named (`uint_putUint`). The orders differ only in where an
octet stands: little endian is big endian backwards, and middle endian is big endian with the two
octets of each word exchanged (`decodeWords_eq`). -/

namespace FileMagic

namespace ByteOrder

/-- The octets with those of each word exchanged. -/
def swapWords : Bytes → Bytes
  | a :: b :: rest => b :: a :: swapWords rest
  | rest => rest

theorem length_swapWords (b : Bytes) : (swapWords b).length = b.length := by
  induction b using swapWords.induct with
  | case1 a b rest ih => rw [swapWords, List.length_cons, List.length_cons, ih]; rfl
  | case2 rest hshort => rw [swapWords]; exact hshort

/-- Each word, put behind those before it, is two octets that are most significant first when they
are exchanged. -/
theorem decodeWords_eq (high : Nat) (b : Bytes) :
    decodeWords high b = (swapWords b).foldl (fun n o => n * 256 + o.toNat) high := by
  induction high, b using decodeWords.induct with
  | case1 high o p rest ih =>
    have hword : high * 65536 + decodeLittle [o, p] = (high * 256 + p.toNat) * 256 + o.toNat := by
      simp only [decodeLittle, List.foldr_cons, List.foldr_nil]
      omega
    rw [decodeWords, ih, hword, swapWords, List.foldl_cons, List.foldl_cons]
  | case2 high rest hshort =>
    rcases rest with _ | ⟨o, _ | ⟨p, rest⟩⟩
    · simp [decodeWords, decodeLittle, swapWords]
    · simp [decodeWords, decodeLittle, swapWords]
    · exact (hshort o p rest rfl).elim

/-- Octets that are read are written back. -/
theorem encode_decode {order : ByteOrder} {b : Bytes} (h : order = .middle → b.length % 2 = 0) :
    order.encode b.length (order.decode b) = b :=
  order.decode_injective (length_encode h _) (decode_encode h (order.decode_lt b))

end ByteOrder

namespace Coder

theorem cast_mem_sizes_iff {size : Nat} : (size : Int) ∈ sizes ↔ size ∈ [2, 4, 8] := by
  simp only [sizes, List.mem_cons, List.not_mem_nil, or_false]
  omega

theorem even_of_mem_sizes {size : Nat} (h : size ∈ [2, 4, 8]) : size % 2 = 0 := by
  revert size
  decide

theorem uint_of_mem_sizes (order : ByteOrder) {b : Bytes} (h : (b.length : Int) ∈ sizes) :
    (ordered order).uint b = .ok (order.decode b) := by
  have hsize : sizes.contains (b.length : Int) = true := List.contains_iff_mem.mpr h
  rw [uint, hsize]
  rfl

theorem uint_of_not_mem_sizes (c : Coder) {b : Bytes} (h : (b.length : Int) ∉ sizes) :
    c.uint b = .error (.size c.name b.length) := by
  have hsize : sizes.contains (b.length : Int) = false := by simpa using h
  unfold uint
  rw [hsize]
  rfl

theorem putUint_of_lt (order : ByteOrder) {size v : Nat} (h : (size : Int) ∈ sizes)
    (hv : v < 256 ^ size) :
    (ordered order).putUint v size = .ok (order.encode size v) := by
  have hsize : sizes.contains (size : Int) = true := List.contains_iff_mem.mpr h
  have hfits : ¬ ((v : Int) < 0 ∨ 256 ^ size ≤ (v : Int)) := by
    rw [not_or, Int.not_lt, Int.not_le]
    exact ⟨Int.natCast_nonneg v, by exact_mod_cast hv⟩
  rw [putUint, hsize, Int.toNat_natCast, if_neg hfits]
  rfl

theorem putUint_of_misfit (c : Coder) {size : Nat} {v : Int} (h : (size : Int) ∈ sizes)
    (hv : v < 0 ∨ 256 ^ size ≤ v) : c.putUint v size = .error (.misfit v size) := by
  have hsize : sizes.contains (size : Int) = true := List.contains_iff_mem.mpr h
  unfold putUint
  rw [hsize, Int.toNat_natCast, if_pos hv]
  rfl

theorem putUint_of_not_mem_sizes (c : Coder) (v : Int) {size : Int} (h : size ∉ sizes) :
    c.putUint v size = .error (.size c.name size) := by
  have hsize : sizes.contains size = false := by simpa using h
  unfold putUint
  rw [hsize]
  rfl

/-- Numbers below the bound of a size and as many octets are the same in every byte order, nothing
else is coded, and how the orders differ. -/
theorem uint_putUint (e : Endianness) :
    (∀ size ∈ [2, 4, 8],
      (∀ v : Nat, v < 2 ^ (8 * size) → ∃ b : Bytes, b.length = size ∧
        (ofEndianness e).putUint v size = .ok b ∧ (ofEndianness e).uint b = .ok v) ∧
      (∀ b : Bytes, b.length = size → ∃ v : Nat, v < 2 ^ (8 * size) ∧
        (ofEndianness e).uint b = .ok v ∧ (ofEndianness e).putUint v size = .ok b) ∧
      ∀ v : Int, v < 0 ∨ 2 ^ (8 * size) ≤ v →
        (ofEndianness e).putUint v size = .error (.misfit v size)) ∧
    (∀ b : Bytes, b.length ∉ [2, 4, 8] →
      (ofEndianness e).uint b = .error (.size (ofEndianness e).name b.length)) ∧
    (∀ v size : Int, size ∉ [2, 4, 8] →
      (ofEndianness e).putUint v size = .error (.size (ofEndianness e).name size)) ∧
    ∀ b : Bytes, b.length ∈ [2, 4, 8] →
      (ofEndianness .little).uint b = (ofEndianness .big).uint b.reverse ∧
      (ofEndianness .middle).uint b = (ofEndianness .big).uint (ByteOrder.swapWords b) := by
  refine ⟨fun size hsize => ⟨fun v hv => ?_, fun b hb => ?_, fun v hv => ?_⟩,
    fun b hb => uint_of_not_mem_sizes _ (mt cast_mem_sizes_iff.mp hb),
    fun v size hsize => putUint_of_not_mem_sizes _ v hsize, fun b hb => ⟨?_, ?_⟩⟩
  · rw [Nat.pow_mul] at hv
    have heven : e.order = .middle → size % 2 = 0 := fun _ => even_of_mem_sizes hsize
    have hlength : (e.order.encode size v).length = size := ByteOrder.length_encode heven v
    refine ⟨e.order.encode size v, hlength,
      putUint_of_lt _ (cast_mem_sizes_iff.mpr hsize) hv, ?_⟩
    rw [ofEndianness, uint_of_mem_sizes _ (cast_mem_sizes_iff.mpr (hlength.symm ▸ hsize)),
      ByteOrder.decode_encode heven hv]
  · subst hb
    have hlt := e.order.decode_lt b
    have heven : e.order = .middle → b.length % 2 = 0 := fun _ => even_of_mem_sizes hsize
    refine ⟨e.order.decode b, ?_, uint_of_mem_sizes _ (cast_mem_sizes_iff.mpr hsize), ?_⟩
    · rwa [Nat.pow_mul]
    · rw [ofEndianness, putUint_of_lt _ (cast_mem_sizes_iff.mpr hsize) hlt]
      exact congrArg Except.ok (ByteOrder.encode_decode heven)
  · refine putUint_of_misfit _ (cast_mem_sizes_iff.mpr hsize) (hv.imp_right fun h => ?_)
    rwa [Int.pow_mul] at h
  · have hreverse : b.reverse.length ∈ [2, 4, 8] := by rwa [List.length_reverse]
    rw [ofEndianness, ofEndianness, uint_of_mem_sizes _ (cast_mem_sizes_iff.mpr hb),
      uint_of_mem_sizes _ (cast_mem_sizes_iff.mpr hreverse)]
    show Except.ok (ByteOrder.decodeLittle b) = .ok (ByteOrder.decodeBig b.reverse)
    rw [ByteOrder.decodeBig_eq, List.reverse_reverse]
  · have hswap : (ByteOrder.swapWords b).length ∈ [2, 4, 8] := by
      rwa [ByteOrder.length_swapWords]
    rw [ofEndianness, ofEndianness, uint_of_mem_sizes _ (cast_mem_sizes_iff.mpr hb),
      uint_of_mem_sizes _ (cast_mem_sizes_iff.mpr hswap)]
    exact congrArg Except.ok (ByteOrder.decodeWords_eq 0 b)

/-- A long of two words in middle endian, three octets, a negative number and a size of none. -/
theorem uint_putUint_middle :
    4 ∈ [2, 4, 8] ∧ 0x12345678 < 2 ^ (8 * 4) ∧
      (ofEndianness .middle).putUint 0x12345678 4 = .ok [0x34, 0x12, 0x78, 0x56] ∧
      (ofEndianness .middle).uint [0x34, 0x12, 0x78, 0x56] = .ok 0x12345678 ∧
      (ofEndianness .big).uint [0x12, 0x34, 0x56, 0x78] = .ok 0x12345678 ∧
      (ofEndianness .middle).uint [1, 2, 3] = .error (.size "MiddleByteOrder".toList 3) ∧
      (ofEndianness .middle).putUint (-1) 4 = .error (.misfit (-1) 4) ∧
      (ofEndianness .middle).putUint 0 0 = .error (.size "MiddleByteOrder".toList 0) := by
  obtain ⟨hcoded, hshort, hsize, horders⟩ := uint_putUint .middle
  obtain ⟨-, hread, hmisfit⟩ := hcoded 4 (by decide)
  obtain ⟨v, -, hv, hback⟩ := hread [0x34, 0x12, 0x78, 0x56] rfl
  have hvalue : v = 0x12345678 := by
    cases hv
    decide
  subst hvalue
  refine ⟨by decide, by decide, hback, hv, ?_, hshort [1, 2, 3] (by decide),
    hmisfit (-1) (.inl (by decide)), hsize 0 0 (by decide)⟩
  have hbig := (horders [0x34, 0x12, 0x78, 0x56] (by decide)).2
  rw [hv] at hbig
  exact hbig.symm

end Coder
end FileMagic
