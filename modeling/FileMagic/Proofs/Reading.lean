import FileMagic.Proofs.Except
import FileMagic.Stream

/-! # What reading gives

A stream whose object gives octets gives parts of its content, up to the limits of the object
(`Gives.readAt_eq_ok_iff`). In memory there is one bound of positions and sizes (`Beyond`). Content
can be read at once or in chunks: it lies within the bound of positions, so that what has been read
never leads beyond it. This is the invariant of all reads that go on where the one before stopped
(`Readable.advance_lt`). -/

namespace FileMagic.Stream

/-- The offsets from which an object can be read are below this bound. -/
def bound : Backing → Int
  | .file reach => min positionLimit (reach + 1)
  | _ => positionLimit

theorem bound_le (backing : Backing) : bound backing ≤ positionLimit := by
  cases backing with
  | file reach => exact Int.min_le_left ..
  | _ => exact Int.le_refl _

theorem sizeLimit_le (backing : Backing) : sizeLimit backing ≤ positionLimit := by
  cases backing with
  | file reach => exact Int.sub_le_self _ (by decide)
  | _ => exact Int.le_refl _

/-- Chunks, and all smaller parts, can be asked for whatever the object is. -/
theorem lt_sizeLimit {size : Int} (h : size ≤ chunkSize) (backing : Backing) :
    size < sizeLimit backing := by
  refine Int.lt_of_le_of_lt h ?_
  cases backing with
  | file reach => exact (by decide : (chunkSize : Int) < positionLimit - 33)
  | _ => exact (by decide : (chunkSize : Int) < positionLimit)

/-- Octets can be had from the object. -/
structure Gives (s : Stream) : Prop where
  isOpen : s.isOpen = true
  backing : s.backing ≠ .silent

/-- All of the content can be had. -/
structure Readable (s : Stream) : Prop extends Gives s where
  length_lt : (s.content.length : Int) < bound s.backing

/-- The object cannot be asked for this. -/
def Exceeds (s : Stream) (offset size : Int) : Prop :=
  0 ≤ offset ∧ 0 < size ∧ (bound s.backing ≤ offset ∨ sizeLimit s.backing ≤ size)

/-- A stream over an object in memory that is open. No such object is as long as the bound. -/
structure InMemory (s : Stream) : Prop where
  backing : s.backing = .memory ∨ s.backing = .handle
  isOpen : s.isOpen = true
  length_lt : (s.content.length : Int) < positionLimit

theorem inMemory_ofBytes {content : Bytes} (h : (content.length : Int) < positionLimit) :
    (ofBytes content).InMemory :=
  ⟨.inl rfl, rfl, h⟩

/-- The content of a stream in an object of its own. -/
def copy (s : Stream) : Stream := .ofBytes s.content

/-- No object in memory can be asked for this. -/
def Beyond (offset size : Int) : Prop :=
  0 ≤ offset ∧ 0 < size ∧ (positionLimit ≤ offset ∨ positionLimit ≤ size)

/-- The octets from an offset on; there are none before the start. -/
def rest (s : Stream) (offset : Int) : Bytes :=
  if offset < 0 then [] else s.content.drop offset.toNat

variable {s : Stream}

theorem rest_of_nonneg {offset : Int} (h : 0 ≤ offset) :
    s.rest offset = s.content.drop offset.toNat := if_neg (Int.not_lt.mpr h)

theorem length_rest_of_neg {offset : Int} (h : offset < 0) : (s.rest offset).length = 0 := by
  rw [rest, if_pos h, List.length_nil]

theorem length_rest {offset : Int} (h : 0 ≤ offset) :
    (s.rest offset).length = s.content.length - offset.toNat := by
  rw [rest, if_neg (Int.not_lt.mpr h), List.length_drop]

/-- Reading on after some of the octets. -/
theorem rest_add {offset : Int} {n : Nat} (h : n ≤ (s.rest offset).length) :
    s.rest (offset + n) = (s.rest offset).drop n := by
  by_cases ho : offset < 0
  · rw [length_rest_of_neg ho] at h
    obtain rfl := Nat.le_zero.mp h
    rw [Int.natCast_zero, Int.add_zero, List.drop_zero]
  · have hadd : (offset + n).toNat = offset.toNat + n := by omega
    rw [rest, rest, if_neg ho, if_neg (by omega), hadd, List.drop_drop]

/-! ## One read -/

theorem Gives.seek_of_lt (h : s.Gives) {offset : Int} (ho : offset < bound s.backing)
    (size : Int) : s.seek offset size = .ok () := by
  have hnot : ¬ positionLimit ≤ offset :=
    Int.not_le.mpr (Int.lt_of_lt_of_le ho (bound_le _))
  cases hb : s.backing with
  | silent => exact absurd hb h.backing
  | file reach =>
    have hreach : ¬ (reach : Int) < offset := by
      rw [hb, bound] at ho
      omega
    simp only [seek, hb, h.isOpen, if_neg hnot, if_neg hreach, Bool.not_true, Bool.false_eq_true,
      if_false]
  | _ => simp only [seek, hb, h.isOpen, if_neg hnot, Bool.not_true, Bool.false_eq_true, if_false]

theorem Gives.fails_seek (h : s.Gives) {offset : Int} (ho : bound s.backing ≤ offset)
    (size : Int) : Fails (s.seek offset size) := by
  cases hb : s.backing with
  | silent => exact absurd hb h.backing
  | file reach =>
    simp only [seek, hb, h.isOpen, Bool.not_true, Bool.false_eq_true, if_false]
    by_cases hlim : positionLimit ≤ offset
    · rw [if_pos hlim]
      exact fails_error _
    · have hreach : (reach : Int) < offset := by
        rw [hb, bound] at ho
        omega
      rw [if_neg hlim, if_pos hreach]
      exact fails_error _
  | _ =>
    have hlim : positionLimit ≤ offset := by rwa [hb] at ho
    simp only [seek, hb, if_pos hlim, fails_error]

/-- A read gives what is there, unless it goes beyond the limits of the object. -/
theorem Gives.readAt_eq_ok_iff (h : s.Gives) {offset size : Int} {b : Bytes} :
    s.readAt (some offset) size = .ok b ↔
      ¬ s.Exceeds offset size ∧ b = (s.rest offset).take size.toNat := by
  by_cases hout : offset < 0 ∨ size ≤ 0
  · have hwithin : ¬ s.Exceeds offset size := by
      intro hb
      obtain ⟨h0, hsize, -⟩ := hb
      omega
    have hnone : (s.rest offset).take size.toNat = [] := by
      rcases hout with ho | hz
      · rw [rest, if_pos ho, List.take_nil]
      · rw [Int.toNat_of_nonpos hz, List.take_zero]
    rw [readAt, if_pos hout, hnone, Except.ok.injEq, and_iff_right hwithin, eq_comm]
  · have hrest : s.rest offset = s.content.drop offset.toNat := rest_of_nonneg (by omega)
    rw [readAt, if_neg hout, hrest]
    by_cases ho : bound s.backing ≤ offset
    · have hexceeds : s.Exceeds offset size := ⟨by omega, by omega, .inl ho⟩
      obtain ⟨e, he⟩ := h.fails_seek ho size
      simp [he, hexceeds]
    · rw [h.seek_of_lt (Int.not_le.mp ho) size]
      simp only [if_neg h.backing]
      by_cases hz : sizeLimit s.backing ≤ size
      · have hexceeds : s.Exceeds offset size := ⟨by omega, by omega, .inr hz⟩
        simp [hz, hexceeds]
      · have hwithin : ¬ s.Exceeds offset size := by
          intro hexceeds
          rcases hexceeds.2.2 with h | h
          · exact ho h
          · exact hz h
        rw [if_neg hz, Except.ok.injEq, and_iff_right hwithin, eq_comm]

theorem Readable.readAt_eq (hs : s.Readable) {offset size : Int}
    (ho : offset < bound s.backing) (hsize : size < sizeLimit s.backing) :
    s.readAt (some offset) size = .ok ((s.rest offset).take size.toNat) := by
  refine hs.toGives.readAt_eq_ok_iff.mpr ⟨?_, rfl⟩
  rintro ⟨-, -, hbound | hlimit⟩
  · exact Int.not_le.mpr ho hbound
  · exact Int.not_le.mpr hsize hlimit

/-- What has been read does not lead beyond the bound. -/
theorem Readable.advance_lt (hs : s.Readable) {offset : Int} {n : Nat}
    (ho : offset < bound s.backing) (hn : n ≤ (s.rest offset).length) :
    offset + n < bound s.backing := by
  have hl := hs.length_lt
  by_cases hneg : offset < 0
  · rw [length_rest_of_neg hneg] at hn
    omega
  · rw [length_rest (Int.not_lt.mp hneg)] at hn
    omega

/-! ## Content in memory -/

theorem InMemory.bound_eq (hs : s.InMemory) : bound s.backing = positionLimit := by
  rcases hs.backing with hb | hb
  · rw [hb]
    rfl
  · rw [hb]
    rfl

theorem InMemory.gives (hs : s.InMemory) : s.Gives := by
  refine ⟨hs.isOpen, ?_⟩
  rcases hs.backing with hb | hb
  · rw [hb]
    exact nofun
  · rw [hb]
    exact nofun

theorem InMemory.exceeds_iff (hs : s.InMemory) {offset size : Int} :
    s.Exceeds offset size ↔ Beyond offset size := by
  rcases hs.backing with hb | hb
  · rw [Exceeds, hb]
    rfl
  · rw [Exceeds, hb]
    rfl

theorem InMemory.lt_bound (hs : s.InMemory) {p : Int} (hp : p < positionLimit) :
    p < bound s.backing := by
  rwa [hs.bound_eq]

theorem InMemory.readable (hs : s.InMemory) : s.Readable := ⟨hs.gives, hs.lt_bound hs.length_lt⟩

theorem InMemory.advance_lt (hs : s.InMemory) {offset : Int} {n : Nat}
    (ho : offset < positionLimit) (hn : n ≤ (s.rest offset).length) :
    offset + n < positionLimit := by
  rw [← hs.bound_eq] at ho ⊢
  exact hs.readable.advance_lt ho hn

theorem InMemory.readAt_of_beyond (hs : s.InMemory) {offset size : Int}
    (h : Beyond offset size) : s.readAt (some offset) size = .error .overflow := by
  obtain ⟨h0, hsize, hbeyond⟩ := h
  have hnot : ¬ (offset < 0 ∨ size ≤ 0) := by omega
  rcases hs.backing with hb | hb
  all_goals
    simp only [readAt, if_neg hnot, seek, hb, hs.isOpen]
    by_cases ho : positionLimit ≤ offset
    · simp [ho]
    · have hsz : positionLimit ≤ size := hbeyond.resolve_left ho
      simp [ho, sizeLimit, hsz]

theorem InMemory.readAt_of_not_beyond (hs : s.InMemory) {offset size : Int}
    (h : ¬ Beyond offset size) :
    s.readAt (some offset) size = .ok ((s.rest offset).take size.toNat) :=
  hs.gives.readAt_eq_ok_iff.mpr ⟨fun hexceeds => h (hs.exceeds_iff.mp hexceeds), rfl⟩

theorem not_beyond {offset size : Int} (ho : offset < positionLimit)
    (hsize : size < positionLimit) : ¬ Beyond offset size := by
  intro h
  rcases h with ⟨-, -, h | h⟩
  · omega
  · omega

/-! ## Reads of more than one chunk -/

/-- A chunk at a position within the bound. -/
theorem Readable.readAt_chunk (hs : s.Readable) {offset : Int} (ho : offset < bound s.backing) :
    s.readAt (some offset) chunkSize = .ok ((s.rest offset).take chunkSize) :=
  hs.readAt_eq ho (lt_sizeLimit (Int.le_refl _) _)

/-- The first `chunkLimit` chunks hold all there is to read. -/
theorem length_rest_lt (s : Stream) (offset : Int) :
    (s.rest offset).length < s.chunkLimit * chunkSize := by
  have hle : (s.rest offset).length ≤ s.content.length := by
    by_cases h : offset < 0
    · rw [length_rest_of_neg h]
      exact Nat.zero_le _
    · rw [length_rest (Int.not_lt.mp h)]
      exact Nat.sub_le _ _
  have hdiv := Nat.div_add_mod s.content.length chunkSize
  have hmod : s.content.length % chunkSize < chunkSize := Nat.mod_lt _ (by decide)
  rw [chunkLimit, Nat.succ_mul, Nat.mul_comm]
  omega

theorem Readable.chunksToEnd_eq (hs : s.Readable) {fuel : Nat} {offset : Int}
    (ho : offset < bound s.backing) (hf : (s.rest offset).length < fuel * chunkSize) :
    s.chunksToEnd fuel (some offset) = .ok (s.rest offset) := by
  induction fuel generalizing offset with
  | zero => omega
  | succ fuel ih =>
    rw [chunksToEnd, hs.readAt_chunk ho, ok_bind, List.length_take]
    by_cases hfull : chunkSize ≤ (s.rest offset).length
    · have hnext := rest_add hfull
      have hlen : ((s.rest offset).drop chunkSize).length < fuel * chunkSize := by
        rw [List.length_drop]
        rw [Nat.succ_mul] at hf
        omega
      have hrest := ih (hs.advance_lt ho hfull) (hnext ▸ hlen)
      rw [if_neg (by omega), Nat.min_eq_left hfull, advance, Option.map_some, hrest, hnext]
      simp
    · rw [if_pos (by omega), List.take_of_length_le (by omega)]
      rfl

/-- Reading to the end gives all from the offset on. -/
theorem Readable.readAll_eq (hs : s.Readable) {offset : Int} (ho : offset < bound s.backing) :
    s.readAll (some offset) = .ok (s.rest offset) :=
  hs.chunksToEnd_eq ho (length_rest_lt s offset)

theorem find?_singleton (t : UInt8) (b : Bytes) :
    find? [t] b = if t ∈ b then some (b.takeWhile (· ≠ t)).length else none := by
  induction b with
  | nil => rfl
  | cons o rest ih =>
    by_cases h : o = t
    · subst h
      simp [find?]
    · have h' : t ≠ o := fun e => h e.symm
      simp only [find?, ih, List.isPrefixOf_cons_cons, h', beq_eq_false_iff_ne.mpr h',
        Bool.false_and, Bool.false_eq_true, if_false, List.mem_cons, false_or]
      by_cases hm : t ∈ rest
      · simp [hm, h]
      · simp [hm]

/-- Octets without the terminator at the front. -/
theorem takeWhile_append_of_not_mem {t : UInt8} {b : Bytes} (h : t ∉ b) (rest : Bytes) :
    (b ++ rest).takeWhile (· ≠ t) = b ++ rest.takeWhile (· ≠ t) :=
  List.takeWhile_append_of_pos fun o ho => by
    have hne : o ≠ t := fun e => h (e ▸ ho)
    simpa using hne

theorem takeWhile_append_of_mem {t : UInt8} {b : Bytes} (h : t ∈ b) (rest : Bytes) :
    (b ++ rest).takeWhile (· ≠ t) = b.takeWhile (· ≠ t) := by
  rw [List.takeWhile_append, if_neg]
  intro hlen
  have hself := (List.takeWhile_prefix _).eq_of_length hlen
  have hall := List.all_takeWhile (p := fun x => decide (x ≠ t)) (l := b)
  rw [hself] at hall
  simpa using List.all_eq_true.mp hall t h

theorem Readable.chunksUntil_eq (hs : s.Readable) (t : UInt8) {fuel : Nat} {offset : Int}
    (ho : offset < bound s.backing) (hf : (s.rest offset).length < fuel * chunkSize) :
    s.chunksUntil [t] fuel (some offset) = .ok ((s.rest offset).takeWhile (· ≠ t)) := by
  induction fuel generalizing offset with
  | zero => omega
  | succ fuel ih =>
    have hsplit := List.take_append_drop chunkSize (s.rest offset)
    rw [chunksUntil, hs.readAt_chunk ho, ok_bind, find?_singleton]
    by_cases hm : t ∈ (s.rest offset).take chunkSize
    · have htake := List.prefix_iff_eq_take.mp
        (List.takeWhile_prefix (fun x => decide (x ≠ t)) (l := (s.rest offset).take chunkSize))
      have hwhile := takeWhile_append_of_mem hm ((s.rest offset).drop chunkSize)
      rw [hsplit] at hwhile
      rw [if_pos hm, hwhile]
      exact congrArg Except.ok htake.symm
    · have hwhile := takeWhile_append_of_not_mem hm ((s.rest offset).drop chunkSize)
      rw [hsplit] at hwhile
      simp only [if_neg hm]
      rw [List.length_take]
      by_cases hfull : chunkSize ≤ (s.rest offset).length
      · have hnext := rest_add hfull
        have hlen : ((s.rest offset).drop chunkSize).length < fuel * chunkSize := by
          rw [List.length_drop]
          rw [Nat.succ_mul] at hf
          omega
        have hrest := ih (hs.advance_lt ho hfull) (hnext ▸ hlen)
        rw [if_neg (by omega), Nat.min_eq_left hfull, advance, Option.map_some, hrest, hnext,
          hwhile]
        rfl
      · have hshort : (s.rest offset).length ≤ chunkSize := by omega
        rw [if_pos (by omega), hwhile, List.drop_eq_nil_of_le hshort]
        simp

/-- Reading up to a terminator gives the octets before the first one. -/
theorem Readable.readUntil_eq (hs : s.Readable) (t : UInt8) {offset : Int}
    (ho : offset < bound s.backing) :
    s.readUntil (some offset) [t] = .ok ((s.rest offset).takeWhile (· ≠ t)) :=
  hs.chunksUntil_eq t ho (length_rest_lt s offset)

theorem InMemory.readUntil_of_limit_le (hs : s.InMemory) (terminator : Bytes) {offset : Int}
    (ho : positionLimit ≤ offset) :
    s.readUntil (some offset) terminator = .error .overflow := by
  have hb : Beyond offset chunkSize :=
    ⟨Int.le_trans (by decide) ho, by decide, .inl ho⟩
  rw [readUntil, chunkLimit, chunksUntil, hs.readAt_of_beyond hb, error_bind]

theorem InMemory.readAll_of_limit_le (hs : s.InMemory) {offset : Int}
    (ho : positionLimit ≤ offset) : s.readAll (some offset) = .error .overflow := by
  have hb : Beyond offset chunkSize :=
    ⟨Int.le_trans (by decide) ho, by decide, .inl ho⟩
  rw [readAll, chunkLimit, chunksToEnd, hs.readAt_of_beyond hb, error_bind]

theorem length_takeWhile_rest_le (s : Stream) (offset : Int) (t : UInt8) :
    ((s.rest offset).takeWhile (· ≠ t)).length ≤ (s.rest offset).length :=
  (List.takeWhile_prefix _).length_le

/-- The octet after those before the terminator, if there is one. -/
theorem Readable.readAt_terminator (hs : s.Readable) (t : UInt8) {offset : Int}
    (ho : offset < bound s.backing) :
    s.readAt (some (offset + ((s.rest offset).takeWhile (· ≠ t)).length)) 1 =
      .ok (((s.rest offset).drop ((s.rest offset).takeWhile (· ≠ t)).length).take 1) := by
  have hlen := length_takeWhile_rest_le s offset t
  have hnext := hs.advance_lt ho hlen
  rw [hs.readAt_eq hnext (lt_sizeLimit (by decide) _), rest_add hlen]
  rfl

theorem InMemory.readLines_of_limit_le (hs : s.InMemory) {offset count : Int}
    (ho : positionLimit ≤ offset) (hc : 0 < count) :
    s.readLines (some offset) count = .error .overflow := by
  have hmin : min count.toNat (s.content.length + 1) =
      min count.toNat (s.content.length + 1) - 1 + 1 := by omega
  rw [readLines, hmin, linesFrom, hs.readUntil_of_limit_le _ ho, error_bind]

end FileMagic.Stream
