import FileMagic.Text.Utf8

/-! # Decoding undoes encoding

The octets of a character take the decoder from between characters to between characters and
leave the character behind (`decodeFrom_utf8EncodeChar`): a lead octet announces how many follow,
and the ranges that keep out overlong forms and surrogates hold for what comes of a character. So
a text is read back from its octets (`decode_utf8`), none of which is zero unless it is the octet
of the character zero. -/

namespace FileMagic.Utf8

theorem decodeFrom_cons (s : State) (b : UInt8) (bs : Bytes) :
    decodeFrom s (b :: bs) = (step s b.toNat).1 ++ decodeFrom (step s b.toNat).2 bs := rfl

theorem start_one {b : Nat} (h : b < 0x80) : start b = ([Char.ofNat b], .ready) := if_pos h

theorem start_two {high : Nat} (h : 2 ≤ high) (h' : high < 32) :
    start (0xc0 + high) = ([], .inside high 1 0x80 0xbf) := by
  simp only [start]
  rw [if_neg (by omega), if_neg (by omega), if_pos (by omega), Nat.add_sub_cancel_left]

/-- The second of three octets keeps out what two octets can hold, and the surrogates. -/
theorem start_three {high : Nat} (h : high < 16) :
    start (0xe0 + high) = ([], .inside high 2 (if high = 0 then 0xa0 else 0x80)
      (if high = 0xd then 0x9f else 0xbf)) := by
  revert high
  decide

/-- The second of four octets keeps out what three can hold, and what is no code point. -/
theorem start_four {high : Nat} (h : high < 5) :
    start (0xf0 + high) = ([], .inside high 3 (if high = 0 then 0x90 else 0x80)
      (if high = 4 then 0x8f else 0xbf)) := by
  revert high
  decide

/-- The last octet of a character. -/
theorem step_last {value low high b : Nat} (hl : low ≤ 0x80 + b) (hh : 0x80 + b ≤ high) :
    step (.inside value 1 low high) (0x80 + b) = ([Char.ofNat (value * 64 + b)], .ready) := by
  simp [step, hl, hh]

theorem step_inside {value missing low high b : Nat} (hl : low ≤ 0x80 + b)
    (hh : 0x80 + b ≤ high) : step (.inside value (missing + 2) low high) (0x80 + b) =
      ([], .inside (value * 64 + b) (missing + 1) 0x80 0xbf) := by
  simp [step, hl, hh]

theorem toNat_octet {m : Nat} (h : m < 256) : (UInt8.ofNat m).toNat = m :=
  UInt8.toNat_ofNat_of_lt' h

theorem decodeFrom_two {high last : Nat} (h : 2 ≤ high) (hh : high < 32) (hl : last < 64)
    (bs : Bytes) :
    decodeFrom .ready (UInt8.ofNat (0xc0 + high) :: UInt8.ofNat (0x80 + last) :: bs) =
      Char.ofNat (high * 64 + last) :: decodeFrom .ready bs := by
  rw [decodeFrom_cons, decodeFrom_cons, toNat_octet (by omega), toNat_octet (by omega), step,
    start_two h hh, step_last (by omega) (by omega)]
  rfl

theorem decodeFrom_three {high middle last : Nat} (hh : high < 16) (hm : middle < 64)
    (hl : last < 64) (hlow : high = 0 → 32 ≤ middle) (hhigh : high = 0xd → middle < 32)
    (bs : Bytes) :
    decodeFrom .ready (UInt8.ofNat (0xe0 + high) :: UInt8.ofNat (0x80 + middle) ::
      UInt8.ofNat (0x80 + last) :: bs) =
      Char.ofNat ((high * 64 + middle) * 64 + last) :: decodeFrom .ready bs := by
  have hlow' : (if high = 0 then 0xa0 else 0x80) ≤ 0x80 + middle := by
    split
    · next h => have := hlow h; omega
    · omega
  have hhigh' : 0x80 + middle ≤ (if high = 0xd then 0x9f else 0xbf) := by
    split
    · next h => have := hhigh h; omega
    · omega
  simp only [decodeFrom_cons]
  rw [toNat_octet (by omega), toNat_octet (by omega), toNat_octet (by omega), step,
    start_three hh, step_inside hlow' hhigh', step_last (by omega) (by omega)]
  rfl

theorem decodeFrom_four {high second third last : Nat} (hh : high < 5) (hs : second < 64)
    (ht : third < 64) (hl : last < 64) (hlow : high = 0 → 16 ≤ second)
    (hhigh : high = 4 → second < 16) (bs : Bytes) :
    decodeFrom .ready (UInt8.ofNat (0xf0 + high) :: UInt8.ofNat (0x80 + second) ::
      UInt8.ofNat (0x80 + third) :: UInt8.ofNat (0x80 + last) :: bs) =
      Char.ofNat (((high * 64 + second) * 64 + third) * 64 + last) :: decodeFrom .ready bs := by
  have hlow' : (if high = 0 then 0x90 else 0x80) ≤ 0x80 + second := by
    split
    · next h => have := hlow h; omega
    · omega
  have hhigh' : 0x80 + second ≤ (if high = 4 then 0x8f else 0xbf) := by
    split
    · next h => have := hhigh h; omega
    · omega
  simp only [decodeFrom_cons]
  rw [toNat_octet (by omega), toNat_octet (by omega), toNat_octet (by omega),
    toNat_octet (by omega), step, start_four hh, step_inside hlow' hhigh',
    step_inside (by omega) (by omega), step_last (by omega) (by omega)]
  rfl

/-- A code point that is no surrogate. -/
theorem toNat_cases (c : Char) : c.toNat < 0xd800 ∨ 0xdfff < c.toNat ∧ c.toNat < 0x110000 :=
  c.valid

theorem decodeFrom_utf8EncodeChar (c : Char) (bs : Bytes) :
    decodeFrom .ready (String.utf8EncodeChar c ++ bs) = c :: decodeFrom .ready bs := by
  have hvalid := toNat_cases c
  have hc : Char.ofNat c.toNat = c := Char.ofNat_toNat c
  have hval : c.val.toNat = c.toNat := rfl
  have htail : ∀ m, m % 64 + 128 = 0x80 + m % 64 := fun m => Nat.add_comm ..
  unfold String.utf8EncodeChar
  simp only [hval, htail]
  generalize c.toNat = n at hvalid hc
  by_cases h1 : n ≤ 127
  · rw [if_pos h1, List.singleton_append, decodeFrom_cons, toNat_octet (by omega), step,
      start_one (by omega), hc]
    rfl
  by_cases h2 : n ≤ 2047
  · have hlead : n / 64 % 32 + 192 = 0xc0 + n / 64 := by omega
    have hsum : n / 64 * 64 + n % 64 = n := by omega
    rw [if_neg h1, if_pos h2, hlead]
    refine (decodeFrom_two (by omega) (by omega) (by omega) bs).trans ?_
    rw [hsum, hc]
  by_cases h3 : n ≤ 65535
  · have hlead : n / 4096 % 16 + 224 = 0xe0 + n / 4096 := by omega
    have hsum : (n / 4096 * 64 + n / 64 % 64) * 64 + n % 64 = n := by omega
    rw [if_neg h1, if_neg h2, if_pos h3, hlead]
    refine (decodeFrom_three (by omega) (by omega) (by omega) (by omega) (by omega) bs).trans ?_
    rw [hsum, hc]
  · have hlead : n / 262144 % 8 + 240 = 0xf0 + n / 262144 := by omega
    have hsum : ((n / 262144 * 64 + n / 4096 % 64) * 64 + n / 64 % 64) * 64 + n % 64 = n := by
      omega
    rw [if_neg h1, if_neg h2, if_neg h3, hlead]
    refine (decodeFrom_four (by omega) (by omega) (by omega) (by omega) (by omega) (by omega)
      bs).trans ?_
    rw [hsum, hc]

theorem decode_utf8 (t : Text) : decode t.utf8 = t := by
  have h : decodeFrom .ready t.utf8 = t := by
    induction t with
    | nil => rfl
    | cons c rest ih =>
      rw [Text.utf8, List.flatMap_cons, decodeFrom_utf8EncodeChar]
      exact congrArg (c :: ·) ih
  exact h

/-- Each ASCII octet is a character. -/
theorem decode_ascii {b : Bytes} (h : ∀ o ∈ b, o.toNat < 0x80) :
    decode b = b.map fun o => Char.ofNat o.toNat := by
  induction b with
  | nil => rfl
  | cons o b ih =>
    obtain ⟨ho, hb⟩ := List.forall_mem_cons.mp h
    have hstart : step .ready o.toNat = ([Char.ofNat o.toNat], .ready) := start_one ho
    rw [decode, decodeFrom_cons, hstart, List.map_cons, ← ih hb]
    rfl

/-- Only the character zero has a zero octet. -/
theorem zero_not_mem_utf8EncodeChar {c : Char} (h : c ≠ '\x00') :
    (0 : UInt8) ∉ String.utf8EncodeChar c := by
  have hvalid := toNat_cases c
  have hval : c.val.toNat = c.toNat := rfl
  have hpos : c.toNat ≠ 0 := fun h0 => h (by rw [← Char.ofNat_toNat c, h0])
  have hoctet : ∀ {m : Nat}, m ≠ 0 → m < 256 → (0 : UInt8) ≠ UInt8.ofNat m := by
    intro m hm hlt hzero
    have htoNat := congrArg UInt8.toNat hzero
    rw [toNat_octet hlt] at htoNat
    exact hm htoNat.symm
  unfold String.utf8EncodeChar
  simp only [hval]
  split
  · rw [List.mem_singleton]
    exact hoctet hpos (by omega)
  split
  · simp only [List.mem_cons, List.not_mem_nil, or_false, not_or]
    exact ⟨hoctet (by omega) (by omega), hoctet (by omega) (by omega)⟩
  split
  · simp only [List.mem_cons, List.not_mem_nil, or_false, not_or]
    exact ⟨hoctet (by omega) (by omega), hoctet (by omega) (by omega),
      hoctet (by omega) (by omega)⟩
  · simp only [List.mem_cons, List.not_mem_nil, or_false, not_or]
    exact ⟨hoctet (by omega) (by omega), hoctet (by omega) (by omega),
      hoctet (by omega) (by omega), hoctet (by omega) (by omega)⟩

theorem zero_not_mem_utf8 {t : Text} (h : '\x00' ∉ t) : (0 : UInt8) ∉ t.utf8 := by
  intro hmem
  obtain ⟨c, hc, hzero⟩ := List.mem_flatMap.mp hmem
  exact zero_not_mem_utf8EncodeChar (fun e => h (e ▸ hc)) hzero

end FileMagic.Utf8
