import FileMagic.Proofs.Reading

/-! # Longer reads are slices of the content

Reading to the end, up to a terminator or by lines goes chunk by chunk, and where chunks begin and
end does not show: what is read is all from the offset on, the longest part of it without the
terminator, or its first lines (`Readable.reads_slices`). The loops over chunks have no bound of
their own. They end because every chunk but the last moves on by its length (`Collects`), so that
the bound on their number which the reads are given is never what ends them. -/

namespace FileMagic

namespace Bytes

/-- The lines of octets, each with the line feed that ends it; the last one may have none. -/
def lines : Bytes → List Bytes
  | [] => []
  | o :: rest =>
    if o = 10 then [o] :: lines rest
    else match lines rest with
      | [] => [[o]]
      | l :: ls => (o :: l) :: ls

/-- The octets before the first line feed, and the line feed if there is one. -/
def firstLine (b : Bytes) : Bytes :=
  b.takeWhile (· ≠ 10) ++ (b.drop (b.takeWhile (· ≠ 10)).length).take 1

theorem firstLine_feed (rest : Bytes) : firstLine (10 :: rest) = [10] := rfl

theorem firstLine_cons {o : UInt8} (h : o ≠ 10) (rest : Bytes) :
    firstLine (o :: rest) = o :: firstLine rest := by
  simp [firstLine, h]

theorem lines_of_ne_nil {b : Bytes} (h : b ≠ []) :
    lines b = firstLine b :: lines (b.drop (firstLine b).length) := by
  induction b with
  | nil => exact absurd rfl h
  | cons o rest ih =>
    by_cases ho : o = 10
    · subst ho
      rw [firstLine_feed, lines, if_pos rfl]
      rfl
    · rw [lines, if_neg ho, firstLine_cons ho, List.length_cons, List.drop_succ_cons]
      cases rest with
      | nil => rfl
      | cons p rest => rw [ih (List.cons_ne_nil p rest)]

theorem flatten_take_lines_succ (b : Bytes) (n : Nat) :
    ((lines b).take (n + 1)).flatten =
      firstLine b ++ ((lines (b.drop (firstLine b).length)).take n).flatten := by
  cases b with
  | nil => simp [lines, firstLine]
  | cons o rest =>
    rw [lines_of_ne_nil (List.cons_ne_nil o rest), List.take_succ_cons, List.flatten_cons]

theorem flatten_lines (b : Bytes) : (lines b).flatten = b := by
  induction b with
  | nil => rfl
  | cons o rest ih =>
    rw [lines]
    split
    · rw [List.flatten_cons, ih, List.singleton_append]
    · cases hrest : lines rest with
      | nil =>
        rw [hrest] at ih
        rw [← ih]
        rfl
      | cons l ls =>
        rw [hrest] at ih
        rw [← ih]
        rfl

theorem length_flatten_take_le (b : Bytes) (n : Nat) :
    ((lines b).take n).flatten.length ≤ b.length := by
  have hsplit := congrArg (·.flatten.length) (List.take_append_drop n (lines b))
  simp only [List.flatten_append, List.length_append, flatten_lines] at hsplit
  omega

/-- There are not more lines than octets. -/
theorem length_lines_le (b : Bytes) : (lines b).length ≤ b.length := by
  induction b with
  | nil => exact Nat.le_refl 0
  | cons o rest ih =>
    rw [lines, List.length_cons]
    split
    · exact Nat.succ_le_succ ih
    · cases hrest : lines rest with
      | nil => exact Nat.succ_le_succ (Nat.zero_le _)
      | cons l ls =>
        rw [hrest] at ih
        exact Nat.le_succ_of_le ih

/-- The lines behind some of the first ones. -/
theorem lines_drop (b : Bytes) (n : Nat) :
    lines (b.drop ((lines b).take n).flatten.length) = (lines b).drop n := by
  induction n generalizing b with
  | zero => rfl
  | succ n ih =>
    rw [flatten_take_lines_succ, List.length_append, ← List.drop_drop, ih]
    cases b with
    | nil => exact List.drop_nil
    | cons o rest => rw [lines_of_ne_nil (List.cons_ne_nil o rest), List.drop_succ_cons]

/-- The longest beginning of octets that does not have `t` in it. -/
structure LongestWithout (t : UInt8) (b part : Bytes) : Prop where
  isPrefix : part <+: b
  not_mem : t ∉ part
  longest : ∀ other, other <+: b → t ∉ other → other <+: part

theorem longestWithout_takeWhile (t : UInt8) (b : Bytes) :
    LongestWithout t b (b.takeWhile (· ≠ t)) where
  isPrefix := List.takeWhile_prefix _
  not_mem := by
    intro h
    have hall := List.all_eq_true.mp (List.all_takeWhile (p := fun o => decide (o ≠ t)) (l := b))
    simpa using hall t h
  longest := by
    intro other hother hmem
    obtain ⟨more, rfl⟩ := hother
    rw [Stream.takeWhile_append_of_not_mem hmem]
    exact List.prefix_append other _

end Bytes

namespace Stream

variable {s : Stream}

/-! ## The loops over chunks -/

/-- A loop over chunks from an offset on, for as long as it goes: `last?` tells whether a chunk is
the last one, and how much of it is read. -/
inductive Collects (s : Stream) (last? : Bytes → Option Bytes) : Option Int → Bytes → Prop
  | last {offset : Option Int} {chunk part : Bytes} :
    s.readAt offset chunkSize = .ok chunk → last? chunk = some part → Collects s last? offset part
  | next {offset : Option Int} {chunk more : Bytes} :
    s.readAt offset chunkSize = .ok chunk → last? chunk = none →
      Collects s last? (advance offset chunk.length) more → Collects s last? offset (chunk ++ more)

/-- A chunk that is not full is the last one. -/
def lastShort (chunk : Bytes) : Option Bytes :=
  if chunk.length ≠ chunkSize then some chunk else none

/-- So is one with the terminator in it, which is read up to there. -/
def lastUntil (terminator chunk : Bytes) : Option Bytes :=
  match find? terminator chunk with
  | some n => some (chunk.take n)
  | none => lastShort chunk

theorem lastShort_of_lt {chunk : Bytes} (h : chunk.length < chunkSize) :
    lastShort chunk = some chunk := if_pos (Nat.ne_of_lt h)

theorem isSome_lastUntil (terminator : Bytes) {chunk : Bytes} (h : chunk.length < chunkSize) :
    (lastUntil terminator chunk).isSome = true := by
  unfold lastUntil
  cases find? terminator chunk with
  | some n => rfl
  | none => rw [lastShort_of_lt h]; rfl

/-- Whatever may be the last chunk, one that is not full is: then the loop ends. -/
theorem Readable.collects (hs : s.Readable) {last? : Bytes → Option Bytes}
    (hlast : ∀ chunk : Bytes, chunk.length < chunkSize → (last? chunk).isSome = true)
    {offset : Int} (ho : offset < bound s.backing) : ∃ b, s.Collects last? (some offset) b := by
  induction hn : (s.rest offset).length using Nat.strongRecOn generalizing offset with
  | ind n ih =>
    have hchunk := hs.readAt_eq ho (lt_sizeLimit (Int.le_refl _) _)
    rw [Int.toNat_natCast] at hchunk
    cases hl : last? ((s.rest offset).take chunkSize) with
    | some part => exact ⟨part, .last hchunk hl⟩
    | none =>
      -- the chunk is full, so that less is left behind it
      have hlen : ((s.rest offset).take chunkSize).length = chunkSize := by
        refine Nat.le_antisymm (List.length_take_le ..) (Nat.not_lt.mp fun hshort => ?_)
        have hsome := hlast _ hshort
        rw [hl] at hsome
        cases hsome
      have hle : chunkSize ≤ (s.rest offset).length := hlen ▸ List.length_take_le' ..
      have hpos : 0 < chunkSize := by decide
      have hless : (s.rest (offset + chunkSize)).length < n := by
        rw [rest_add hle, List.length_drop]
        omega
      obtain ⟨more, hmore⟩ := ih _ hless (hs.advance_lt ho hle) rfl
      refine ⟨(s.rest offset).take chunkSize ++ more, .next hchunk hl ?_⟩
      rw [hlen]
      exact hmore

/-- What a loop does with a chunk, and with the chunks behind it. -/
def onward (last? : Bytes → Option Bytes) (chunk : Bytes) (more : Except ReadFault Bytes) :
    Except ReadFault Bytes :=
  match last? chunk with
  | some part => .ok part
  | none => more.map (chunk ++ ·)

/-- A loop that may read so many chunks and no more is the loop without a bound, if these are
enough. -/
theorem Collects.enough {last? : Bytes → Option Bytes}
    {loop : Nat → Option Int → Except ReadFault Bytes}
    (hloop : ∀ fuel offset, loop (fuel + 1) offset = s.readAt offset chunkSize >>= fun chunk =>
      onward last? chunk (loop fuel (advance offset chunk.length)))
    {offset : Option Int} {b : Bytes} (h : s.Collects last? offset b) :
    ∃ enough, ∀ fuel ≥ enough, loop fuel offset = .ok b := by
  induction h with
  | last hchunk hl =>
    refine ⟨1, fun fuel hfuel => ?_⟩
    obtain ⟨fuel, rfl⟩ := Nat.exists_eq_add_of_le' hfuel
    rw [hloop, hchunk, ok_bind, onward, hl]
  | next hchunk hl _ ih =>
    obtain ⟨enough, hmore⟩ := ih
    refine ⟨enough + 1, fun fuel hfuel => ?_⟩
    obtain ⟨fuel, rfl⟩ := Nat.exists_eq_add_of_le' (Nat.le_trans (Nat.le_add_left 1 enough) hfuel)
    rw [hloop, hchunk, ok_bind, onward, hl, hmore fuel (Nat.le_of_succ_le_succ hfuel)]
    rfl

theorem chunksToEnd_succ (s : Stream) (fuel : Nat) (offset : Option Int) :
    s.chunksToEnd (fuel + 1) offset = s.readAt offset chunkSize >>= fun chunk =>
      onward lastShort chunk (s.chunksToEnd fuel (advance offset chunk.length)) := by
  rw [chunksToEnd]
  refine bind_congr fun chunk => ?_
  unfold onward lastShort
  by_cases hshort : chunk.length ≠ chunkSize
  · rw [if_pos hshort, if_pos hshort]
    rfl
  · rw [if_neg hshort, if_neg hshort]
    exact bind_pure_comp _ _

theorem chunksUntil_succ (s : Stream) (terminator : Bytes) (fuel : Nat) (offset : Option Int) :
    s.chunksUntil terminator (fuel + 1) offset = s.readAt offset chunkSize >>= fun chunk =>
      onward (lastUntil terminator) chunk
        (s.chunksUntil terminator fuel (advance offset chunk.length)) := by
  rw [chunksUntil]
  refine bind_congr fun chunk => ?_
  unfold onward lastUntil lastShort
  cases find? terminator chunk with
  | some n => rfl
  | none =>
    by_cases hshort : chunk.length ≠ chunkSize
    · simp only [if_pos hshort]
      rfl
    · simp only [if_neg hshort]
      exact bind_pure_comp _ _

/-! ## What the reads give -/

theorem length_rest_lt_of_le (s : Stream) (offset : Int) {fuel : Nat} (h : s.chunkLimit ≤ fuel) :
    (s.rest offset).length < fuel * chunkSize :=
  Nat.lt_of_lt_of_le (s.length_rest_lt offset) (Nat.mul_le_mul_right chunkSize h)

theorem Readable.collects_rest (hs : s.Readable) {offset : Int} (ho : offset < bound s.backing) :
    s.Collects lastShort (some offset) (s.rest offset) := by
  have hshort : ∀ chunk : Bytes, chunk.length < chunkSize → (lastShort chunk).isSome = true := by
    intro chunk h
    rw [lastShort_of_lt h]
    rfl
  obtain ⟨b, hb⟩ := hs.collects hshort ho
  obtain ⟨enough, hloop⟩ := hb.enough s.chunksToEnd_succ
  have hread := hs.chunksToEnd_eq ho
    (s.length_rest_lt_of_le offset (Nat.le_add_left s.chunkLimit enough))
  rw [hloop _ (Nat.le_add_right enough s.chunkLimit), Except.ok.injEq] at hread
  exact hread ▸ hb

theorem Readable.collects_takeWhile (hs : s.Readable) (t : UInt8) {offset : Int}
    (ho : offset < bound s.backing) :
    s.Collects (lastUntil [t]) (some offset) ((s.rest offset).takeWhile (· ≠ t)) := by
  obtain ⟨b, hb⟩ := hs.collects (fun chunk h => isSome_lastUntil [t] h) ho
  obtain ⟨enough, hloop⟩ := hb.enough (s.chunksUntil_succ [t])
  have hread := hs.chunksUntil_eq t ho
    (s.length_rest_lt_of_le offset (Nat.le_add_left s.chunkLimit enough))
  rw [hloop _ (Nat.le_add_right enough s.chunkLimit), Except.ok.injEq] at hread
  exact hread ▸ hb

/-- Each round reads the first of the lines that are left. -/
theorem Readable.linesFrom_eq (hs : s.Readable) {count : Nat} {offset : Int}
    (ho : offset < bound s.backing) : s.linesFrom count (some offset) =
      .ok ((Bytes.lines (s.rest offset)).take count).flatten := by
  induction count generalizing offset with
  | zero => rfl
  | succ count ih =>
    have hline := length_takeWhile_rest_le s offset 10
    have hlen : (Bytes.firstLine (s.rest offset)).length ≤ (s.rest offset).length := by
      rw [Bytes.firstLine, List.length_append, List.length_take, List.length_drop]
      omega
    rw [linesFrom, hs.readUntil_eq 10 ho, ok_bind, Bytes.flatten_take_lines_succ]
    simp only [advance, Option.map_some]
    rw [hs.readAt_terminator 10 ho, ok_bind]
    by_cases hnone : (((s.rest offset).drop
        ((s.rest offset).takeWhile (· ≠ 10)).length).take 1).isEmpty = true
    · -- without a line feed the line is all there is
      have hend : (s.rest offset).drop ((s.rest offset).takeWhile (· ≠ 10)).length = [] := by
        simpa using hnone
      have hrest : (s.rest offset).drop (Bytes.firstLine (s.rest offset)).length = [] := by
        rw [Bytes.firstLine, List.length_append, ← List.drop_drop, hend, List.drop_nil]
      rw [if_pos hnone, hrest, Bytes.lines, List.take_nil, List.flatten_nil, List.append_nil]
      rfl
    · have hnext := ih (hs.advance_lt ho hlen)
      rw [rest_add hlen] at hnext
      rw [if_neg hnone]
      exact (congrArg (· >>= _) hnext).trans rfl

theorem Readable.readLines_eq (hs : s.Readable) (count : Int) {offset : Int}
    (ho : offset < bound s.backing) : s.readLines (some offset) count =
      .ok ((Bytes.lines (s.rest offset)).take count.toNat).flatten := by
  have hlines := Bytes.length_lines_le (s.rest offset)
  have hcontent : (s.rest offset).length ≤ s.content.length := by
    by_cases hneg : offset < 0
    · rw [length_rest_of_neg hneg]
      exact Nat.zero_le _
    · rw [length_rest (Int.not_lt.mp hneg)]
      exact Nat.sub_le _ _
  -- the bound on the number of lines leaves none out
  have htake : (Bytes.lines (s.rest offset)).take (min count.toNat (s.content.length + 1)) =
      (Bytes.lines (s.rest offset)).take count.toNat := by
    rw [List.take_eq_take_iff]
    omega
  rw [readLines, hs.linesFrom_eq ho, htake]

/-- Lines, and then the lines behind them. -/
theorem Readable.readLines_add (hs : s.Readable) (j k : Nat) {offset : Int}
    (ho : offset < bound s.backing) : ∃ first second,
      s.readLines (some offset) j = .ok first ∧
      s.readLines (some (offset + first.length)) k = .ok second ∧
      s.readLines (some offset) (j + k : Nat) = .ok (first ++ second) := by
  let whole := Bytes.lines (s.rest offset)
  have hlen : (whole.take j).flatten.length ≤ (s.rest offset).length :=
    Bytes.length_flatten_take_le (s.rest offset) j
  refine ⟨(whole.take j).flatten, ((whole.drop j).take k).flatten, hs.readLines_eq j ho, ?_, ?_⟩
  · rw [hs.readLines_eq k (hs.advance_lt ho hlen), rest_add hlen, Bytes.lines_drop]
    rfl
  · rw [hs.readLines_eq _ ho, Int.toNat_natCast, List.take_add, List.flatten_append]

/-- The longer reads end, and give slices of the content; there is nothing before its start. -/
theorem Readable.reads_slices (hs : s.Readable) {offset : Int} (ho : offset < bound s.backing) :
    (0 ≤ offset →
      (s.readAll (some offset) = .ok (s.content.drop offset.toNat) ∧
        s.Collects lastShort (some offset) (s.content.drop offset.toNat)) ∧
      (∀ t, ∃ part, s.readUntil (some offset) [t] = .ok part ∧
        s.Collects (lastUntil [t]) (some offset) part ∧
        Bytes.LongestWithout t (s.content.drop offset.toNat) part) ∧
      (∀ count : Int, s.readLines (some offset) count =
        .ok ((Bytes.lines (s.content.drop offset.toNat)).take count.toNat).flatten) ∧
      ∀ j k : Nat, ∃ first second,
        s.readLines (some offset) j = .ok first ∧
        s.readLines (some (offset + first.length)) k = .ok second ∧
        s.readLines (some offset) (j + k : Nat) = .ok (first ++ second)) ∧
    (offset < 0 → s.readAll (some offset) = .ok [] ∧
      (∀ t, s.readUntil (some offset) [t] = .ok []) ∧
      ∀ count, s.readLines (some offset) count = .ok []) := by
  have hall := hs.readAll_eq ho
  have huntil := fun t => hs.readUntil_eq t ho
  constructor
  · intro h
    rw [← rest_of_nonneg h]
    refine ⟨⟨hall, hs.collects_rest ho⟩, fun t => ?_, fun count => hs.readLines_eq count ho,
      fun j k => hs.readLines_add j k ho⟩
    exact ⟨_, huntil t, hs.collects_takeWhile t ho, Bytes.longestWithout_takeWhile t _⟩
  · intro h
    have hnone : s.rest offset = [] := if_pos h
    refine ⟨hnone ▸ hall, fun t => ?_, fun count => ?_⟩
    · rw [huntil, hnone]
      rfl
    · rw [hs.readLines_eq count ho, hnone, Bytes.lines, List.take_nil]
      rfl

/-- A line feed that is the last octet of a chunk, and a last line without one. -/
theorem reads_slices_full_chunk :
    let s : Stream := .ofBytes (List.replicate 255 65 ++ [10, 66, 10, 67])
    s.Readable ∧ 0 < bound s.backing ∧
      s.readLines (some 0) 2 = .ok (List.replicate 255 65 ++ [10, 66, 10]) := by
  intro s
  have hs : s.Readable := ⟨⟨rfl, nofun⟩, by decide +kernel⟩
  have ho : 0 < bound s.backing := by decide
  obtain ⟨-, -, hlines, -⟩ := (hs.reads_slices ho).1 (Int.le_refl 0)
  exact ⟨hs, ho, (hlines 2).trans (congrArg Except.ok (by decide +kernel))⟩

end Stream
end FileMagic
