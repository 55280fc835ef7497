import FileMagic.Proofs.Position
import FileMagic.Proofs.Slice
import FileMagic.Session

/-! # What a stream does over its life

The object behind a stream is closed by its owner alone: by the stream if it has opened the
object, by the caller if it is the caller's. Until then every read gives what it gave in the
beginning, and within the limits of the object this is a part of the content that any fresh stream
gives (`Read.ofStream_gives`). From then on every read that reaches the object fails. All are facts
on streams without positions, to which `Handle.run_follows` leads back; the steps of a session only
decide which of them it is (`Session.step_toStream`). -/

namespace FileMagic

namespace Read

/-- Where the read starts. -/
def start? : Read → Option Int
  | .part offset _ | .upTo offset _ | .rest offset => offset
  | .lines offset _ => some offset

def StartsBelow (limit : Int) (r : Read) : Prop := ∀ o ∈ r.start?, o < limit

theorem startsBelow_iff {limit o : Int} {r : Read} (h : r.start? = some o) :
    r.StartsBelow limit ↔ o < limit := by simp [StartsBelow, h]

/-- The read asks for fewer octets at once. Only parts are as large as one likes. -/
def AsksBelow (limit : Int) : Read → Prop
  | .part _ size => size < limit
  | _ => True

theorem AsksBelow.mono {limit limit' : Int} {r : Read} (h : r.AsksBelow limit)
    (hle : limit ≤ limit') : r.AsksBelow limit' := by
  cases r with
  | part offset size => exact Int.lt_of_lt_of_le h hle
  | upTo offset terminator => trivial
  | lines offset count => trivial
  | rest offset => trivial

/-- An object that stands behind a stream in this way can be asked for this. -/
structure Within (backing : Backing) (r : Read) : Prop where
  start : r.StartsBelow (Stream.bound backing)
  size : r.AsksBelow (Stream.sizeLimit backing)

/-- Whether the object is asked at all. -/
def Reaches : Read → Prop
  | .part offset size => (∃ o ∈ offset, 0 ≤ o) ∧ 0 < size
  | .upTo offset _ => ∃ o ∈ offset, 0 ≤ o
  | .lines offset count => 0 ≤ offset ∧ 0 < count
  | .rest offset => ∃ o ∈ offset, 0 ≤ o

end Read

namespace Stream

variable {s t : Stream}

/-! ## Reads of an open object -/

theorem rest_congr (hc : t.content = s.content) (offset : Int) : t.rest offset = s.rest offset := by
  rw [rest, rest, hc]

/-- There is one part of the content that every readable stream over it gives, if it can be read
from there. -/
theorem Readable.chunksUntil_gives (hs : s.Readable) (terminator : Bytes) (fuel : Nat)
    {offset : Int} (ho : offset < bound s.backing) :
    ∃ b, ∀ t : Stream, t.Readable → t.content = s.content → offset < bound t.backing →
      t.chunksUntil terminator fuel (some offset) = .ok b := by
  induction fuel generalizing offset with
  | zero => exact ⟨[], fun _ _ _ _ => rfl⟩
  | succ fuel ih =>
    -- all streams read this chunk, so that they also stop or go on alike
    let chunk := (s.rest offset).take chunkSize
    have hlen : chunk.length ≤ (s.rest offset).length := List.length_take_le' ..
    have hchunk : ∀ t : Stream, t.Readable → t.content = s.content → offset < bound t.backing →
        t.readAt (some offset) chunkSize = .ok chunk := by
      intro t ht hc hot
      rw [ht.readAt_eq hot (lt_sizeLimit (Int.le_refl _) _), rest_congr hc]
      rfl
    cases hfind : find? terminator chunk with
    | some n =>
      refine ⟨chunk.take n, ?_⟩
      intro t ht hc hot
      rw [chunksUntil, hchunk t ht hc hot, ok_bind, hfind]
      rfl
    | none =>
      by_cases hfull : chunk.length ≠ chunkSize
      · refine ⟨chunk, ?_⟩
        intro t ht hc hot
        rw [chunksUntil, hchunk t ht hc hot, ok_bind, hfind]
        exact if_pos hfull
      · obtain ⟨more, hrest⟩ := ih (hs.advance_lt ho hlen)
        refine ⟨chunk ++ more, ?_⟩
        intro t ht hc hot
        have hnext := ht.advance_lt hot (rest_congr hc offset ▸ hlen)
        rw [chunksUntil, hchunk t ht hc hot, ok_bind, hfind]
        simp only [if_neg hfull, advance, Option.map_some, hrest t ht hc hnext, ok_bind,
          pure_eq_ok]

theorem Readable.readUntil_gives (hs : s.Readable) (terminator : Bytes) {offset : Int}
    (ho : offset < bound s.backing) :
    ∃ b, ∀ t : Stream, t.Readable → t.content = s.content → offset < bound t.backing →
      t.readUntil (some offset) terminator = .ok b := by
  obtain ⟨b, hb⟩ := hs.chunksUntil_gives terminator s.chunkLimit ho
  refine ⟨b, ?_⟩
  intro t ht hc hot
  have hlimit : t.chunkLimit = s.chunkLimit := by rw [chunkLimit, chunkLimit, hc]
  rw [readUntil, hlimit]
  exact hb t ht hc hot

/-! ## Reads that ask the object for nothing, and reads of a closed object -/

theorem readAt_of_not_reaches (s : Stream) {offset : Option Int} {size : Int}
    (h : ¬ (Read.part offset size).Reaches) : s.readAt offset size = .ok [] := by
  cases offset with
  | none => rfl
  | some o =>
    have hout : o < 0 ∨ size ≤ 0 := by
      by_cases ho : 0 ≤ o
      · exact .inr (Int.not_lt.mp fun hz => h ⟨⟨o, rfl, ho⟩, hz⟩)
      · exact .inl (Int.not_le.mp ho)
    rw [readAt, if_pos hout]

/-- Where there is no chunk there is nothing to go on with. -/
theorem chunksUntil_of_empty {offset : Option Int} (h : s.readAt offset chunkSize = .ok [])
    (terminator : Bytes) (fuel : Nat) : s.chunksUntil terminator fuel offset = .ok [] := by
  cases fuel with
  | zero => rfl
  | succ fuel =>
    rw [chunksUntil, h, ok_bind, find?]
    by_cases ht : terminator.isEmpty = true
    · rw [if_pos ht]
      rfl
    · rw [if_neg ht]
      rfl

theorem chunksToEnd_of_empty {offset : Option Int} (h : s.readAt offset chunkSize = .ok [])
    (fuel : Nat) : s.chunksToEnd fuel offset = .ok [] := by
  cases fuel with
  | zero => rfl
  | succ fuel =>
    rw [chunksToEnd, h, ok_bind]
    rfl

theorem linesFrom_of_neg (s : Stream) {offset : Int} (ho : offset < 0) (count : Nat) :
    s.linesFrom count (some offset) = .ok [] := by
  have hnothing : ∀ size : Int, s.readAt (some offset) size = .ok [] := by
    intro size
    rw [readAt, if_pos (.inl ho)]
  cases count with
  | zero => rfl
  | succ count =>
    rw [linesFrom, readUntil, chunksUntil_of_empty (hnothing chunkSize), ok_bind]
    simp only [advance, Option.map_some, List.length_nil, Int.natCast_zero, Int.add_zero,
      hnothing 1, ok_bind]
    rfl

/-- The failure of a stream whose object cannot be read. -/
def Refuses (x : Except ReadFault Bytes) : Prop :=
  ∃ size offset why, x = .error (.unreadable size offset why)

theorem Refuses.bind {x : Except ReadFault Bytes} (h : Refuses x)
    (f : Bytes → Except ReadFault Bytes) : Refuses (x >>= f) := by
  obtain ⟨size, offset, why, rfl⟩ := h
  exact ⟨size, offset, why, rfl⟩

/-- The object cannot be moved to this offset. -/
def RefusesFrom (s : Stream) (offset : Int) : Prop :=
  0 ≤ offset ∧ ∀ size, ∃ why, s.seek offset size = .error (.unreadable size offset why)

theorem RefusesFrom.readAt {offset size : Int} (h : s.RefusesFrom offset) (hz : 0 < size) :
    Refuses (s.readAt (some offset) size) := by
  obtain ⟨ho, hseek⟩ := h
  obtain ⟨why, hwhy⟩ := hseek size
  have hin : ¬ (offset < 0 ∨ size ≤ 0) := by omega
  exact ⟨size, offset, why, by rw [Stream.readAt, if_neg hin, hwhy]⟩

theorem RefusesFrom.readUntil {offset : Int} (h : s.RefusesFrom offset) (terminator : Bytes) :
    Refuses (s.readUntil (some offset) terminator) := by
  rw [Stream.readUntil, chunkLimit, chunksUntil]
  exact (h.readAt (by decide)).bind _

theorem RefusesFrom.readAll {offset : Int} (h : s.RefusesFrom offset) :
    Refuses (s.readAll (some offset)) := by
  rw [Stream.readAll, chunkLimit, chunksToEnd]
  exact (h.readAt (by decide)).bind _

theorem RefusesFrom.readLines {offset count : Int} (h : s.RefusesFrom offset)
    (hcount : 0 < count) : Refuses (s.readLines (some offset) count) := by
  have hmin : min count.toNat (s.content.length + 1) =
      min count.toNat (s.content.length + 1) - 1 + 1 := by omega
  rw [Stream.readLines, hmin, linesFrom]
  exact (h.readUntil [10]).bind _

/-- An object that has been closed. One that never gives an octet is not asked whether it is. -/
structure Closed (s : Stream) : Prop where
  isOpen : s.isOpen = false
  backing : s.backing ≠ .silent

theorem Closed.refusesFrom (hs : s.Closed) {offset : Int} (ho : 0 ≤ offset)
    (hlim : offset < positionLimit) : s.RefusesFrom offset := by
  refine ⟨ho, fun size => ?_⟩
  have hnot : ¬ positionLimit ≤ offset := by omega
  cases hb : s.backing with
  | silent => exact absurd hb hs.backing
  | file reach => exact ⟨_, by simp only [seek, hb, hs.isOpen]; rfl⟩
  | memory | handle => exact ⟨_, by simp only [seek, hb, hs.isOpen, if_neg hnot]; rfl⟩

/-- A file cannot be moved beyond its reach. -/
theorem Gives.refusesFrom (hs : s.Gives) (hfile : s.backing.isFile = true) {offset : Int}
    (ho : 0 ≤ offset) (hbound : bound s.backing ≤ offset) : s.RefusesFrom offset := by
  refine ⟨ho, fun size => ?_⟩
  cases hb : s.backing with
  | file reach =>
    simp only [seek, hb, hs.isOpen, Bool.not_true, Bool.false_eq_true, if_false]
    by_cases hlim : positionLimit ≤ offset
    · exact ⟨_, by rw [if_pos hlim]⟩
    · have hreach : (reach : Int) < offset := by
        rw [hb, bound] at hbound
        omega
      exact ⟨_, by rw [if_neg hlim, if_pos hreach]⟩
  | memory | handle | silent =>
    rw [hb] at hfile
    cases hfile

/-- An object that could be moved cannot be asked for so much. -/
theorem Gives.readAt_overflows (hs : s.Gives) {offset size : Int} (ho : 0 ≤ offset)
    (hbound : offset < bound s.backing) (hz : 0 < size) (hlim : sizeLimit s.backing ≤ size) :
    s.readAt (some offset) size = .error .overflow := by
  have hin : ¬ (offset < 0 ∨ size ≤ 0) := by omega
  rw [readAt, if_neg hin, hs.seek_of_lt hbound]
  simp only [if_neg hs.backing, if_pos hlim]

end Stream

namespace Read

variable {s : Stream}

theorem ofStream_of_not_reaches (s : Stream) {r : Read} (h : ¬ r.Reaches) :
    r.ofStream s = .ok [] := by
  cases r with
  | part offset size => exact s.readAt_of_not_reaches h
  | upTo offset terminator =>
    have hchunk : s.readAt offset Stream.chunkSize = .ok [] :=
      s.readAt_of_not_reaches fun hr => h hr.1
    exact Stream.chunksUntil_of_empty hchunk terminator s.chunkLimit
  | lines offset count =>
    by_cases ho : 0 ≤ offset
    · have hnone : count.toNat = 0 :=
        Int.toNat_of_nonpos (Int.not_lt.mp fun hcount => h ⟨ho, hcount⟩)
      show s.readLines (some offset) count = .ok []
      rw [Stream.readLines, hnone, Nat.zero_min]
      rfl
    · exact s.linesFrom_of_neg (Int.not_le.mp ho) _
  | rest offset =>
    have hchunk : s.readAt offset Stream.chunkSize = .ok [] :=
      s.readAt_of_not_reaches fun hr => h hr.1
    exact Stream.chunksToEnd_of_empty hchunk s.chunkLimit

theorem Reaches.start {r : Read} (h : r.Reaches) : ∃ o, r.start? = some o ∧ 0 ≤ o := by
  cases r with
  | part offset size => exact h.1
  | upTo offset terminator => exact h
  | lines offset count => exact ⟨offset, rfl, h.1⟩
  | rest offset => exact h

/-- A read fails that starts where the object cannot be moved. -/
theorem ofStream_refuses {r : Read} (hr : r.Reaches) {o : Int} (ho : r.start? = some o)
    (h : s.RefusesFrom o) : Stream.Refuses (r.ofStream s) := by
  cases r with
  | part offset size =>
    obtain rfl : offset = some o := ho
    exact h.readAt hr.2
  | upTo offset terminator =>
    obtain rfl : offset = some o := ho
    exact h.readUntil terminator
  | lines offset count =>
    obtain rfl : offset = o := Option.some.inj ho
    exact h.readLines hr.2
  | rest offset =>
    obtain rfl : offset = some o := ho
    exact h.readAll

/-- A closed object is no use to a read that reaches it. -/
theorem ofStream_of_closed (hs : s.Closed) {r : Read} (hw : r.StartsBelow Stream.positionLimit)
    (hr : r.Reaches) : Stream.Refuses (r.ofStream s) := by
  obtain ⟨o, ho, hnonneg⟩ := hr.start
  exact ofStream_refuses hr ho (hs.refusesFrom hnonneg (hw o ho))

/-- A file refuses reads that start beyond its reach, and cannot make room for too large ones. -/
theorem ofStream_of_file (hs : s.Gives) (hfile : s.backing.isFile = true) {r : Read}
    (hr : r.Reaches) :
    (¬ r.StartsBelow (Stream.bound s.backing) → Stream.Refuses (r.ofStream s)) ∧
      (r.StartsBelow (Stream.bound s.backing) → ¬ r.AsksBelow (Stream.sizeLimit s.backing) →
        r.ofStream s = .error .overflow) := by
  obtain ⟨o, ho, hnonneg⟩ := hr.start
  constructor
  · intro hstart
    have hbound : Stream.bound s.backing ≤ o := by
      refine Int.not_lt.mp fun hlt => hstart fun q hq => ?_
      obtain rfl : o = q := Option.some.inj (ho.symm.trans hq)
      exact hlt
    exact ofStream_refuses hr ho (hs.refusesFrom hfile hnonneg hbound)
  · intro hstart hsize
    cases r with
    | part offset size =>
      obtain rfl : offset = some o := ho
      exact hs.readAt_overflows hnonneg (hstart o rfl) hr.2 (Int.not_lt.mp hsize)
    | upTo offset terminator => exact absurd trivial hsize
    | lines offset count => exact absurd trivial hsize
    | rest offset => exact absurd trivial hsize

/-- Within the limits of the object what a read gives depends on the content alone. -/
theorem ofStream_gives (hs : s.Readable) {r : Read} (hw : r.Within s.backing) :
    ∃ b, ∀ t : Stream, t.Readable → t.content = s.content → r.Within t.backing →
      r.ofStream t = .ok b := by
  by_cases hr : r.Reaches
  · cases r with
    | part offset size =>
      obtain ⟨⟨o, rfl, -⟩, -⟩ := hr
      refine ⟨(s.rest o).take size.toNat, ?_⟩
      intro t ht hc hwt
      show t.readAt (some o) size = _
      rw [ht.readAt_eq (hwt.start o rfl) hwt.size, Stream.rest_congr hc]
    | upTo offset terminator =>
      obtain ⟨o, rfl, -⟩ := hr
      obtain ⟨b, hb⟩ := hs.readUntil_gives terminator (hw.start o rfl)
      exact ⟨b, fun t ht hc hwt => hb t ht hc (hwt.start o rfl)⟩
    | lines offset count =>
      refine ⟨((Bytes.lines (s.rest offset)).take count.toNat).flatten, ?_⟩
      intro t ht hc hwt
      rw [← Stream.rest_congr hc]
      exact ht.readLines_eq count (hwt.start offset rfl)
    | rest offset =>
      obtain ⟨o, rfl, -⟩ := hr
      refine ⟨s.rest o, ?_⟩
      intro t ht hc hwt
      rw [← Stream.rest_congr hc]
      exact ht.readAll_eq (hwt.start o rfl)
  · exact ⟨[], fun t _ _ _ => ofStream_of_not_reaches t hr⟩

end Read

/-! ## What a step does to the object -/

namespace Step

/-- The stream is closed, or left. -/
def closesStream : Step → Bool
  | .close | .leave => true
  | _ => false

/-- The caller closes the object, whichever stream is in use. -/
def closesHandle : Step → Bool
  | .closeHandle => true
  | .again e => e.closesHandle
  | _ => false

/-- The step closes an object that stands behind a stream in this way. -/
def ends (backing : Backing) (e : Step) : Bool :=
  e.closesStream && backing.isFile || e.closesHandle && backing = .handle

theorem closesStream_iff {e : Step} : e.closesStream = true ↔ e = .close ∨ e = .leave := by
  cases e <;> simp [closesStream]

theorem ends_iff {backing : Backing} {e : Step} : e.ends backing = true ↔
    backing.isFile = true ∧ (e = .close ∨ e = .leave) ∨
      backing = .handle ∧ e.closesHandle = true := by
  rw [ends, Bool.or_eq_true, Bool.and_eq_true, Bool.and_eq_true, closesStream_iff,
    decide_eq_true_iff, and_comm, and_comm (a := e.closesHandle = true)]

end Step

namespace Session

/-- What closes the object behind the session. -/
def closedBy (s : Session) (e : Step) : Bool :=
  e.closesStream && s.owned || e.closesHandle && s.handle.backing = .handle

theorem closedBy_around (s : Session) (e : Step) :
    s.around.closedBy e = s.closedBy (.again e) := by
  show (e.closesStream && false || _) = (false && s.owned || _)
  rw [Bool.and_false, Bool.false_and]
  rfl

/-- A read gives what the stream gives, and changes nothing but the position. -/
theorem read_eq (s : Session) (r : Read) :
    ∃ moved, s.read r =
      (r.ofStream s.handle.toStream, s.withHandle ⟨s.handle.toStream, moved⟩) := by
  obtain ⟨moved, hmoved⟩ := Handle.run_follows s.handle.toStream r s.handle.position
  refine ⟨moved, ?_⟩
  have hrun : r.run s.handle =
      Handle.outcome ⟨s.handle.toStream, moved⟩ (r.ofStream s.handle.toStream) := hmoved
  rw [read, hrun]
  cases r.ofStream s.handle.toStream with
  | error e => rfl
  | ok b => rfl

theorem read_answer (s : Session) (r : Read) : (s.read r).1 = r.ofStream s.handle.toStream := by
  obtain ⟨moved, h⟩ := s.read_eq r
  rw [h]

/-- A step closes the object or leaves it open, and does nothing else to the stream. -/
theorem step_toStream (s : Session) (e : Step) : (s.step e).2.handle.toStream =
    { s.handle.toStream with isOpen := s.isOpen && !s.closedBy e } := by
  induction e generalizing s with
  | read r =>
    obtain ⟨moved, h⟩ := s.read_eq r
    rw [step, h]
    simp [closedBy, Step.closesStream, Step.closesHandle, isOpen, withHandle]
  | close | leave =>
    cases ho : s.owned with
    | false => simp [step, close, ho, closedBy, Step.closesHandle, isOpen]
    | true => simp [step, close, ho, closedBy, Step.closesStream]
  | closeHandle =>
    by_cases hb : s.handle.backing = .handle
    · simp [step, closeHandle, hb, closedBy, Step.closesHandle]
    · simp [step, closeHandle, hb, closedBy, Step.closesStream, isOpen]
  | wrap | probe rules position =>
    simp [step, probe, closedBy, Step.closesStream, Step.closesHandle, isOpen]
  | again e ih =>
    -- the second stream owns nothing, so that only the caller closes through it
    show (s.around.step e).2.handle.toStream = _
    rw [ih, closedBy_around]
    rfl

/-- Ownership ends with the stream. -/
theorem step_owned (s : Session) (e : Step) :
    (s.step e).2.owned = (s.owned && !e.closesStream) := by
  cases e with
  | read r =>
    obtain ⟨moved, h⟩ := s.read_eq r
    rw [step, h]
    simp [withHandle, Step.closesStream]
  | close | leave =>
    cases ho : s.owned with
    | false => simp [step, close, ho]
    | true => simp [step, close, ho, Step.closesStream]
  | closeHandle =>
    by_cases hb : s.handle.backing = .handle
    · simp [step, closeHandle, hb, Step.closesStream]
    · simp [step, closeHandle, hb, Step.closesStream]
  | wrap | probe rules position | again e =>
    simp [step, probe, withHandle, Step.closesStream]

/-! ## The whole life -/

/-- The stream owns the object if it has opened it, and as long as it is open. -/
def Rightful (s : Session) : Prop := s.owned = (s.handle.backing.isFile && s.isOpen)

variable {s : Session}

theorem Rightful.stays_open (hs : s.Rightful) (e : Step) :
    (s.isOpen && !s.closedBy e) = (s.isOpen && !e.ends s.handle.backing) := by
  rw [closedBy, Step.ends, hs]
  cases s.isOpen with
  | false => rfl
  | true => rw [Bool.and_true]

theorem Rightful.step_toStream (hs : s.Rightful) (e : Step) : (s.step e).2.handle.toStream =
    { s.handle.toStream with isOpen := s.isOpen && !e.ends s.handle.backing } := by
  rw [Session.step_toStream, hs.stays_open]

theorem Rightful.step (hs : s.Rightful) (e : Step) : (s.step e).2.Rightful := by
  have hstream := hs.step_toStream e
  rw [Rightful, step_owned, isOpen, hstream, hs]
  cases hb : s.handle.backing with
  | file reach => simp [Step.ends, Backing.isFile]
  | memory | handle | silent => simp [Backing.isFile]

/-- Ownership is kept by all steps, and the object is closed by the first that ends it. -/
theorem Rightful.after (hs : s.Rightful) (steps : List Step) :
    (s.after steps).Rightful ∧ (s.after steps).handle.toStream =
      { s.handle.toStream with
        isOpen := s.isOpen && !steps.any (Step.ends s.handle.backing) } := by
  induction steps generalizing s with
  | nil => exact ⟨hs, by simp [Session.after, isOpen]⟩
  | cons e rest ih =>
    have hstream := hs.step_toStream e
    have hbacking : (s.step e).2.handle.backing = s.handle.backing := by rw [hstream]
    have hopen : (s.step e).2.isOpen = (s.isOpen && !e.ends s.handle.backing) := by
      rw [isOpen, hstream]
    obtain ⟨hrightful, hrest⟩ := ih (hs.step e)
    refine ⟨hrightful, ?_⟩
    show ((s.step e).2.after rest).handle.toStream = _
    rw [hrest, hbacking, hopen, hstream, List.any_cons, Bool.not_or, Bool.and_assoc]

end Session

namespace Source

/-- The content of something that can be read; what never gives an octet has none. -/
def content? : Source → Option Bytes
  | .memory _ content | .handle _ content => some content
  | .path _ _ (.ok file) => some file.content
  | _ => none

def isPath : Source → Bool
  | .path .. => true
  | _ => false

def isHandle : Source → Bool
  | .handle .. => true
  | _ => false

end Source

namespace Session

variable {s : Session} {source : Source} {content : Bytes}

/-- The stream over a source before anything has happened to it. -/
structure Fresh (source : Source) (content : Bytes) (s : Session) : Prop where
  rightful : s.Rightful
  readable : s.handle.toStream.Readable
  content : s.handle.content = content
  isFile : s.handle.backing.isFile = source.isPath
  handle_iff : s.handle.backing = .handle ↔ source.isHandle = true

theorem ofSource_fresh (hc : source.content? = some content)
    (hl : (content.length : Int) < Stream.positionLimit) (position : Nat) :
    ∃ made, ofSource position source = .ok made ∧ made.Fresh source content := by
  cases source with
  | memory kind b | handle kind b =>
    cases hc
    refine ⟨_, rfl, rfl, ⟨⟨rfl, by simp⟩, hl⟩, rfl, rfl, ?_⟩
    simp [Source.isHandle]
  | path kind name file =>
    cases file with
    | error fault => cases hc
    | ok file =>
      cases hc
      have hlt : (file.content.length : Int) < Stream.bound (.file file.reach) := by
        have hle := file.length_le
        rw [Stream.bound]
        omega
      refine ⟨_, rfl, rfl, ⟨⟨rfl, by simp⟩, hlt⟩, rfl, rfl, ?_⟩
      simp [Source.isHandle]
  | silent kind | unreadable kind => cases hc

theorem any_ends_iff (backing : Backing) (steps : List Step) :
    steps.any (Step.ends backing) = true ↔
      backing.isFile = true ∧ (∃ e ∈ steps, e = .close ∨ e = .leave) ∨
        backing = .handle ∧ ∃ e ∈ steps, e.closesHandle = true := by
  rw [List.any_eq_true]
  constructor
  · intro h
    obtain ⟨e, he, hend⟩ := h
    rcases Step.ends_iff.mp hend with ⟨hb, hclose⟩ | ⟨hb, hclose⟩
    · exact .inl ⟨hb, e, he, hclose⟩
    · exact .inr ⟨hb, e, he, hclose⟩
  · intro h
    rcases h with ⟨hb, e, he, hclose⟩ | ⟨hb, e, he, hclose⟩
    · exact ⟨e, he, Step.ends_iff.mpr (.inl ⟨hb, hclose⟩)⟩
    · exact ⟨e, he, Step.ends_iff.mpr (.inr ⟨hb, hclose⟩)⟩

variable {made : Session}

theorem Fresh.after_toStream (hm : made.Fresh source content) (steps : List Step) :
    (made.after steps).handle.toStream = { made.handle.toStream with
      isOpen := !steps.any (Step.ends made.handle.backing) } := by
  have hopen : made.isOpen = true := hm.readable.isOpen
  rw [(hm.rightful.after steps).2, hopen, Bool.true_and]

theorem Fresh.closed_iff (hm : made.Fresh source content) (steps : List Step) :
    (made.after steps).isOpen = false ↔
      source.isPath = true ∧ (∃ e ∈ steps, e = .close ∨ e = .leave) ∨
        source.isHandle = true ∧ ∃ e ∈ steps, e.closesHandle = true := by
  rw [← hm.isFile, ← hm.handle_iff, ← any_ends_iff, isOpen, hm.after_toStream,
    Bool.not_eq_eq_eq_not, Bool.not_false]

theorem Fresh.closed_after (hm : made.Fresh source content) {steps : List Step}
    (ho : (made.after steps).isOpen = false) : (made.after steps).handle.toStream.Closed := by
  refine ⟨ho, ?_⟩
  rw [hm.after_toStream]
  exact hm.readable.backing

/-- An open stream is what it was in the beginning. -/
theorem Fresh.toStream_of_open (hm : made.Fresh source content) {steps : List Step}
    (ho : (made.after steps).isOpen = true) :
    (made.after steps).handle.toStream = made.handle.toStream := by
  have hstream := hm.after_toStream steps
  rw [isOpen, hstream] at ho
  rw [hstream, show (!steps.any (Step.ends made.handle.backing)) = made.handle.isOpen from
    ho.trans hm.readable.isOpen.symm]

/-- Over its whole life a stream is closed by its owner alone, and is read as in the beginning
until then: as if it were fresh, within the limits of its object. An open file has lower limits
than an object in memory, and fails beyond them. A closed object fails in all reads that reach
it. -/
theorem life_of_source (hc : source.content? = some content)
    (hl : (content.length : Int) < Stream.positionLimit) (position : Nat) :
    ∃ made, ofSource position source = .ok made ∧ ∀ steps : List Step,
      ((made.after steps).isOpen = false ↔
        source.isPath = true ∧ (∃ e ∈ steps, e = .close ∨ e = .leave) ∨
          source.isHandle = true ∧ ∃ e ∈ steps, e.closesHandle = true) ∧
      ((made.after steps).isOpen = true → ∀ r : Read,
        ((made.after steps).read r).1 = (made.read r).1 ∧
        (r.Within made.handle.backing → ∃ b, ((made.after steps).read r).1 = .ok b ∧
          ∀ (other : Source) (elsewhere : Nat) (fresh : Session),
            other.content? = some content → ofSource elsewhere other = .ok fresh →
              r.Within fresh.handle.backing → (fresh.read r).1 = .ok b) ∧
        (source.isPath = true → r.Reaches →
          (¬ r.StartsBelow (Stream.bound made.handle.backing) →
            Stream.Refuses ((made.after steps).read r).1) ∧
          (r.StartsBelow (Stream.bound made.handle.backing) →
            ¬ r.AsksBelow (Stream.sizeLimit made.handle.backing) →
              ((made.after steps).read r).1 = .error .overflow))) ∧
      ((made.after steps).isOpen = false → ∀ r : Read,
        (r.StartsBelow Stream.positionLimit → r.Reaches →
          Stream.Refuses ((made.after steps).read r).1) ∧
        (¬ r.Reaches → ((made.after steps).read r).1 = .ok [])) := by
  obtain ⟨made, hmade, hm⟩ := ofSource_fresh hc hl position
  refine ⟨made, hmade, fun steps => ⟨hm.closed_iff steps, ?_, ?_⟩⟩
  · intro ho r
    have hread : ((made.after steps).read r).1 = r.ofStream made.handle.toStream := by
      rw [read_answer, hm.toStream_of_open ho]
    refine ⟨hread.trans (made.read_answer r).symm, fun hw => ?_, fun hpath hr => ?_⟩
    · obtain ⟨b, hb⟩ := r.ofStream_gives hm.readable hw
      refine ⟨b, hread.trans (hb _ hm.readable rfl hw), ?_⟩
      intro other elsewhere fresh hother hfresh hwf
      obtain ⟨fresh', hfresh', hf⟩ := ofSource_fresh hother hl elsewhere
      obtain rfl : fresh' = fresh := Except.ok.inj (hfresh'.symm.trans hfresh)
      rw [read_answer]
      exact hb _ hf.readable (hf.content.trans hm.content.symm) hwf
    · rw [hread]
      exact Read.ofStream_of_file hm.readable.toGives (hm.isFile.trans hpath) hr
  · intro ho r
    have hclosed := hm.closed_after ho
    refine ⟨fun hw hr => ?_, fun hr => ?_⟩
    · rw [read_answer]
      exact r.ofStream_of_closed hclosed hw hr
    · rw [read_answer]
      exact Read.ofStream_of_not_reaches _ hr

/-- A file that a second stream leaves open, and the first closes twice. -/
theorem life_of_source_path :
    let source : Source := .path "str".toList "a".toList (.ok (.ofBytes 4096 [1, 2, 3]))
    let made : Session := ⟨⟨⟨"str".toList, .file 4096, [1, 2, 3], true⟩, 0⟩, true⟩
    source.content? = some [1, 2, 3] ∧ (([1, 2, 3] : Bytes).length : Int) < Stream.positionLimit ∧
      ofSource 0 source = .ok made ∧
      ((made.after [.read (.rest (some 1)), .again .leave]).read (.part (some 1) 5)).1 =
        .ok [2, 3] ∧
      ((made.after [.wrap]).read (.part (some 1) (2 ^ 63))).1 = .error .overflow ∧
      Stream.Refuses ((made.after [.wrap]).read (.rest (some 4097))).1 ∧
      Stream.Refuses ((made.after [.close, .close]).read (.lines 0 1)).1 := by
  intro source made
  have hl : (([1, 2, 3] : Bytes).length : Int) < Stream.positionLimit := by decide
  have hc : source.content? = some [1, 2, 3] := rfl
  obtain ⟨made', hmade, hlife⟩ := life_of_source hc hl 0
  obtain rfl : made = made' := Except.ok.inj hmade
  have hstart : ∀ limit : Int, 5 < limit → (Read.part (some 1) 5).StartsBelow limit := by
    rintro limit hlimit o ⟨⟩
    omega
  have hopens : ∀ steps, (∀ e ∈ steps, e ≠ .close ∧ e ≠ .leave) →
      (made.after steps).isOpen = true := by
    intro steps hsteps
    refine Bool.not_eq_false _ ▸ fun hclosed => ?_
    rcases (hlife steps).1.mp hclosed with ⟨-, e, he, hend⟩ | ⟨hhandle, -⟩
    · rcases hend with hend | hend
      · exact (hsteps e he).1 hend
      · exact (hsteps e he).2 hend
    · cases hhandle
  refine ⟨hc, hl, rfl, ?_, ?_, ?_, ?_⟩
  · have ho := hopens [.read (.rest (some 1)), .again .leave] (by simp)
    obtain ⟨b, hread, hfresh⟩ := ((hlife _).2.1 ho (.part (some 1) 5)).2.1
      ⟨hstart _ (by decide), show (5 : Int) < _ by decide⟩
    have hb : Except.ok [2, 3] = Except.ok b := hfresh (.memory [] [1, 2, 3]) 0 _ rfl rfl
      ⟨hstart _ (by decide), show (5 : Int) < _ by decide⟩
    rw [hread, hb]
  · have ho := hopens [.wrap] (by simp)
    refine (((hlife _).2.1 ho (.part (some 1) (2 ^ 63))).2.2 rfl ⟨⟨1, rfl, by decide⟩, by decide⟩).2
      ?_ (show ¬ (2 ^ 63 : Int) < _ by decide)
    rintro o ⟨⟩
    decide
  · have ho := hopens [.wrap] (by simp)
    refine (((hlife _).2.1 ho (.rest (some 4097))).2.2 rfl ⟨4097, rfl, by decide⟩).1 fun h => ?_
    exact absurd (h 4097 rfl) (by decide)
  · have hc : (made.after [.close, .close]).isOpen = false :=
      (hlife _).1.mpr (.inl ⟨rfl, .close, by simp⟩)
    refine ((hlife _).2.2 hc (.lines 0 1)).1 ?_ ⟨by decide, by decide⟩
    rintro o ⟨⟩
    decide

/-- A file of two octets and a fresh stream over the same octets, asked for as many octets as there
may be: the file has no room for them. -/
theorem file_overflows_below_bound :
    let r : Read := .part (some 0) (2 ^ 63 - 1)
    let file : File := .ofBytes (2 ^ 44 - 2 ^ 12) [0x61, 0x62]
    r.StartsBelow Stream.positionLimit ∧ r.AsksBelow Stream.positionLimit ∧
      ∃ made fresh, ofSource 0 (.path "str".toList "a".toList (.ok file)) = .ok made ∧
        ofSource 0 (.memory "bytes".toList file.content) = .ok fresh ∧ made.isOpen = true ∧
        (made.read r).1 = .error .overflow ∧ (fresh.read r).1 = .ok [0x61, 0x62] := by
  refine ⟨?_, show (2 ^ 63 - 1 : Int) < _ by decide, _, _, rfl, rfl, rfl, ?_, ?_⟩
  · rintro o ⟨⟩
    decide
  · rw [read_answer]
    rfl
  · rw [read_answer]
    rfl

end Session
end FileMagic
