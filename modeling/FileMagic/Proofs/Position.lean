import FileMagic.Handle

/-! # The position of an object never shows

Every read first moves the object to where it reads from, so that what it gives does not depend
on where the object stood, and the stream is as before but for that. `Follows` says so of one
computation; it is preserved when computations follow each other, and all reads are made of
`readAt`. -/

namespace FileMagic.Handle

variable {α β : Type} {s : Stream}

theorem bind_of_ok {x : Moving α} {f : α → Moving β} {h h' : Handle} {a : α}
    (hx : x h = .ok a h') : (x >>= f) h = f a h' := by
  show EStateM.bind x f h = f a h'
  rw [EStateM.bind, hx]

theorem bind_of_error {x : Moving α} {f : α → Moving β} {h h' : Handle} {e : ReadFault}
    (hx : x h = .error e h') : (x >>= f) h = .error e h' := by
  show EStateM.bind x f h = .error e h'
  rw [EStateM.bind, hx]

/-- An outcome, and the handle as it is then. -/
def outcome (h : Handle) : Except ReadFault α → EStateM.Result ReadFault Handle α
  | .ok a => .ok a h
  | .error e => .error e h

/-- Wherever the object of the stream stands, this comes of the computation, and the stream
itself stays as it is. -/
def Follows (s : Stream) (x : Moving α) (y : Except ReadFault α) : Prop :=
  ∀ position, ∃ moved, x ⟨s, position⟩ = outcome ⟨s, moved⟩ y

theorem Follows.pure (s : Stream) (a : α) : Follows s (pure a) (.ok a) :=
  fun position => ⟨position, rfl⟩

theorem Follows.bind {x : Moving α} {f : α → Moving β} {y : Except ReadFault α}
    {g : α → Except ReadFault β} (hx : Follows s x y) (hf : ∀ a, Follows s (f a) (g a)) :
    Follows s (x >>= f) (y >>= g) := by
  intro position
  obtain ⟨moved, hmoved⟩ := hx position
  cases y with
  | error e => exact ⟨moved, bind_of_error hmoved⟩
  | ok a =>
    obtain ⟨last, hlast⟩ := hf a moved
    exact ⟨last, (bind_of_ok hmoved).trans hlast⟩

/-- What a computation looks up of the stream is there at every position. -/
theorem Follows.get {f : Handle → Moving α} {y : Except ReadFault α}
    (hf : ∀ position, Follows s (f ⟨s, position⟩) y) : Follows s (get >>= f) y :=
  fun position => hf position position

/-- The move comes before the read, so that nothing is left of the old position. -/
theorem readAt_follows (s : Stream) (offset : Option Int) (size : Int) :
    Follows s (readAt offset size) (s.readAt offset size) := by
  cases offset with
  | none => exact .pure s []
  | some o =>
    rw [readAt, Stream.readAt]
    by_cases hout : o < 0 ∨ size ≤ 0
    · rw [if_pos hout, if_pos hout]
      exact .pure s []
    · rw [if_neg hout, if_neg hout]
      intro position
      cases hmove : s.seek o size with
      | error e =>
        have hseek : seek o size ⟨s, position⟩ = .error e ⟨s, position⟩ := by
          rw [seek, hmove]
        exact ⟨position, bind_of_error hseek⟩
      | ok u =>
        have hseek : seek o size ⟨s, position⟩ = .ok () ⟨s, o.toNat⟩ := by
          rw [seek, hmove]
        rw [bind_of_ok hseek, read]
        by_cases hsilent : s.backing = .silent
        · exact ⟨o.toNat, by rw [if_pos hsilent, if_pos hsilent]; rfl⟩
        · rw [if_neg hsilent, if_neg hsilent]
          by_cases hlarge : Stream.sizeLimit s.backing ≤ size
          · exact ⟨o.toNat, by rw [if_pos hlarge, if_pos hlarge]; rfl⟩
          · exact ⟨_, by rw [if_neg hlarge, if_neg hlarge]; rfl⟩

theorem chunksUntil_follows (s : Stream) (terminator : Bytes) (fuel : Nat)
    (offset : Option Int) :
    Follows s (chunksUntil terminator fuel offset) (s.chunksUntil terminator fuel offset) := by
  induction fuel generalizing offset with
  | zero => exact .pure s []
  | succ fuel ih =>
    refine (readAt_follows s offset Stream.chunkSize).bind fun chunk => ?_
    cases Stream.find? terminator chunk with
    | some n => exact .pure s (chunk.take n)
    | none =>
      show Follows s (if _ then _ else _) (if _ then _ else _)
      split
      · exact .pure s chunk
      · exact (ih _).bind fun rest => .pure s (chunk ++ rest)

theorem readUntil_follows (s : Stream) (offset : Option Int) (terminator : Bytes) :
    Follows s (readUntil offset terminator) (s.readUntil offset terminator) :=
  .get fun _ => chunksUntil_follows s terminator s.chunkLimit offset

theorem chunksToEnd_follows (s : Stream) (fuel : Nat) (offset : Option Int) :
    Follows s (chunksToEnd fuel offset) (s.chunksToEnd fuel offset) := by
  induction fuel generalizing offset with
  | zero => exact .pure s []
  | succ fuel ih =>
    refine (readAt_follows s offset Stream.chunkSize).bind fun chunk => ?_
    split
    · exact .pure s chunk
    · exact (ih _).bind fun rest => .pure s (chunk ++ rest)

theorem readAll_follows (s : Stream) (offset : Option Int) :
    Follows s (readAll offset) (s.readAll offset) :=
  .get fun _ => chunksToEnd_follows s s.chunkLimit offset

theorem linesFrom_follows (s : Stream) (count : Nat) (offset : Option Int) :
    Follows s (linesFrom count offset) (s.linesFrom count offset) := by
  induction count generalizing offset with
  | zero => exact .pure s []
  | succ count ih =>
    refine (readUntil_follows s offset [10]).bind fun line => ?_
    refine (readAt_follows s _ 1).bind fun newline => ?_
    show Follows s (if _ then _ else _) (if _ then _ else _)
    split
    · exact .pure s (line ++ newline)
    · exact (ih _).bind fun rest => .pure s (line ++ newline ++ rest)

theorem readLines_follows (s : Stream) (offset : Option Int) (count : Int) :
    Follows s (readLines offset count) (s.readLines offset count) :=
  .get fun _ => linesFrom_follows s _ offset

/-- Every read gives what the stream gives that has no position. -/
theorem run_follows (s : Stream) (r : Read) : Follows s r.run (r.ofStream s) := by
  cases r with
  | part offset size => exact readAt_follows s offset size
  | upTo offset terminator => exact readUntil_follows s offset terminator
  | lines offset count => exact readLines_follows s (some offset) count
  | rest offset => exact readAll_follows s offset

end FileMagic.Handle
