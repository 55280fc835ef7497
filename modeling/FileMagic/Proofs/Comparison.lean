import FileMagic.Proofs.IntegerTest
import FileMagic.Proofs.Lifecycle

/-! # What a test of a value finds

A test of a value looks at so many octets from where its offset leads, or at nothing
(`Bytes.at?`). Over any stream that gives its content it has found something exactly when they are
all there and what they are decoded to stands as asked to what is expected
(`compareDecoded_eq`). -/

namespace FileMagic

/-- So many octets from a position on, if they are all there. -/
def Bytes.at? (content : Bytes) (p : Int) (size : Nat) : Option Bytes :=
  if 0 ≤ p ∧ p + size ≤ content.length then some ((content.drop p.toNat).take size) else none

namespace Bytes

variable {content b : Bytes} {p : Int} {size : Nat}

theorem length_of_at? (h : at? content p size = some b) : b.length = size := by
  rw [at?] at h
  split at h
  · next hwhole =>
    obtain rfl := Option.some.inj h
    rw [List.length_take, List.length_drop]
    omega
  · cases h

/-- The octets at a position are those that are found there. -/
theorem at?_eq_some_iff (hsize : 0 < size) : at? content p size = some b ↔
    b.length = size ∧ 0 ≤ p ∧ Stream.Found content p.toNat b := by
  constructor
  · intro h
    have hlength := length_of_at? h
    rw [at?] at h
    split at h
    · next hwhole =>
      refine ⟨hlength, hwhole.1, ?_⟩
      rw [Stream.Found, hlength]
      exact Option.some.inj h
    · cases h
  · rintro ⟨rfl, hp, hfound⟩
    have hlength := congrArg List.length hfound
    rw [List.length_take, List.length_drop] at hlength
    rw [at?, if_pos ⟨hp, by omega⟩, hfound]

end Bytes

/-- An offset leads to a position that the object can be moved to, or nowhere. -/
structure Offset.LeadsTo (s : Stream) (o : Offset) (position : Option Int) : Prop where
  resolves : o.resolve s 0 = .ok position
  lt : ∀ p ∈ position, p < Stream.bound s.backing

theorem Offset.leadsTo_fixed (s : Stream) {p : Int} (hp : p < Stream.bound s.backing) :
    (Offset.fixed p).LeadsTo s (some p) := by
  refine ⟨by rw [Offset.resolve, Int.zero_add], fun q hq => ?_⟩
  cases hq
  exact hp

namespace Test

variable {s : Stream} {offset : Offset} {position : Option Int} {size : Nat}

theorem readExactly_eq (hs : s.Readable) (ho : offset.LeadsTo s position) (hsize : 0 < size)
    (hlt : (size : Int) < Stream.sizeLimit s.backing) : readExactly s offset size =
      .ok (position.bind fun p => (Bytes.at? s.content p size).map (p, ·)) := by
  rw [readExactly, ho.resolves, ok_bind]
  cases position with
  | none => rfl
  | some p =>
    simp only [hs.readAt_eq (ho.lt p rfl) hlt, ok_bind, pure_eq_ok, Int.toNat_natCast,
      Option.bind_some, Bytes.at?, ne_eq, Stream.length_take_rest_iff hsize, ite_not]
    split
    · next hwhole =>
      rw [Stream.rest_of_nonneg hwhole.1]
      rfl
    · rfl

variable {decode : Bytes → Value} {expected : Value} {o : Operator}
  {shown : Value → Option Text} {accepts : Bytes → Bool}

theorem compareDecoded_eq (hs : s.Readable) (ho : offset.LeadsTo s position) (hsize : 0 < size)
    (hlt : (size : Int) < Stream.sizeLimit s.backing)
    (hcompare : ∀ raw, (decode raw).compare expected o = .ok (accepts raw)) :
    compareDecoded s offset size decode expected o shown =
      .ok (position.bind fun p => (Bytes.at? s.content p size).bind fun raw =>
        if accepts raw then some ⟨some (p + size), shown (decode raw)⟩ else none) := by
  rw [compareDecoded, readExactly_eq hs ho hsize hlt, ProbeFault.ofRead_ok, ok_bind]
  cases position with
  | none => rfl
  | some p =>
    rw [Option.bind_some, Option.bind_some]
    cases Bytes.at? s.content p size with
    | none => rfl
    | some raw =>
      simp only [Option.map_some, hcompare, ok_bind, Option.bind_some]
      split <;> rfl

theorem compareDecoded_of_at? (hs : s.Readable) {p : Int} (ho : offset.LeadsTo s (some p))
    (hsize : 0 < size) (hlt : (size : Int) < Stream.sizeLimit s.backing) {raw : Bytes}
    (hat : Bytes.at? s.content p size = some raw)
    (hcompare : (decode raw).compare expected o = .ok true) :
    compareDecoded s offset size decode expected o shown =
      .ok (some ⟨some (p + size), shown (decode raw)⟩) := by
  rw [compareDecoded, readExactly_eq hs ho hsize hlt, ProbeFault.ofRead_ok, ok_bind,
    Option.bind_some, hat]
  simp only [Option.map_some, hcompare, ok_bind, if_true]
  rfl

/-- A test has no outcome where it has found nothing, and only there. -/
theorem evaluate_eq_none_iff_of_hit {t : Test} (ho : t.operator ∈ t.operators)
    {found : Option Hit} (h : t.hit s = .ok found) (template : Text) :
    t.evaluate s template = .ok none ↔ found = none := by
  cases found with
  | none => exact iff_of_true (evaluate_of_no_hit ho h template) rfl
  | some hit =>
    refine iff_of_false (fun hnone => ?_) (Option.some_ne_none hit)
    rw [evaluate_of_hit ho h] at hnone
    obtain ⟨message, -, hmessage⟩ := map_eq_ok_iff.mp hnone
    cases hmessage

end Test
end FileMagic
