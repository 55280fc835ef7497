import FileMagic.Proofs.Signature
import FileMagic.Proofs.Totality

/-! # Rules that never strain

Some rules can be seen to be harmless without looking at any content: their pointers are too
short to lead beyond the bound of positions, what they read is short, and every conversion of
their messages has a layout. A database of such rules always has an answer
(`matching_isOk`). The position to which a regular expression leads is not bounded by its rule,
so that its message must have no conversion at all. -/

namespace FileMagic

variable {s : Stream}

theorem Width.decode_le (w : Width) (signed : Bool) (e : Endianness) (b : Bytes) :
    w.decode signed e b ≤ 2 ^ w.bits - 1 :=
  Int.le_sub_one_of_lt (w.holds_wrap signed (e.order.decode b)).lt

namespace Offset

mutual

/-- The greatest position that can come of a reference up to a bound, unless a pointer could be
beyond the bound of positions. -/
def ceiling (reference : Int) : Offset → Option Int
  | .fixed value => some (reference + value)
  | .indirect value width _ _ delta =>
    if reference + value < Stream.positionLimit then some (2 ^ width.bits - 1 + delta) else none
  | .chain first rest => (ceiling reference first).bind fun c => ceilingOfStages c rest

def ceilingOfStages (position : Int) : List Offset → Option Int
  | [] => some position
  | o :: rest => (ceiling position o).bind fun c => ceilingOfStages c rest

end

/-- No pointer of an offset is beyond the bound, and no position that comes of it is past `c`. -/
structure Keeps (s : Stream) (reference c : Int) (o : Offset) : Prop where
  within : ¬ o.Overreaches s reference
  le : ∀ p, o.resolve s reference = .ok (some p) → p ≤ c

structure StagesKeep (s : Stream) (position c : Int) (stages : List Offset) : Prop where
  within : ¬ StagesOverreach s position stages
  le : ∀ p, resolveStages s position stages = .ok (some p) → p ≤ c

/-- Each stage is bounded by the bound that the one before it keeps. -/
theorem Keeps.cons {reference c c' : Int} {o : Offset} {rest : List Offset}
    (ho : o.Keeps s reference c') (hrest : ∀ q ≤ c', StagesKeep s q c rest) :
    StagesKeep s reference c (o :: rest) where
  within := by
    intro hover
    rcases hover with h | ⟨q, hq, h⟩
    · exact ho.within h
    · exact (hrest q (ho.le q hq)).within h
  le := by
    intro p hp
    obtain ⟨position, hposition, hp⟩ := bind_eq_ok_iff.mp hp
    cases position with
    | none => cases hp
    | some q => exact (hrest q (ho.le q hposition)).le p hp

/-- A chain is its stages. -/
theorem StagesKeep.chain {reference c : Int} {first : Offset} {rest : List Offset}
    (h : StagesKeep s reference c (first :: rest)) : Keeps s reference c (.chain first rest) :=
  ⟨h.within, h.le⟩

mutual

theorem keeps_ceiling {reference bound c : Int} (hr : reference ≤ bound) :
    ∀ o : Offset, o.ceiling bound = some c → o.Keeps s reference c
  | .fixed value, h => by
    cases h
    refine ⟨id, fun p hp => ?_⟩
    cases hp
    exact Int.add_le_add_right hr value
  | .indirect value width endianness signed delta, h => by
    rw [ceiling] at h
    split at h
    · next hnear =>
      cases h
      refine ⟨fun hover => ?_, fun p hp => ?_⟩
      · rw [Overreaches] at hover
        omega
      · obtain ⟨raw, -, hp⟩ := bind_eq_ok_iff.mp hp
        split at hp
        · cases hp
        · next hlength =>
          rw [target_eq_decode (Classical.not_not.mp hlength)] at hp
          cases hp
          exact Int.add_le_add_right (width.decode_le signed endianness raw) delta
    · cases h
  | .chain first rest, h => by
    obtain ⟨c', hfirst, hrest⟩ := Option.bind_eq_some_iff.mp h
    have hkeeps := keeps_ceiling hr first hfirst
    exact (hkeeps.cons fun q hq => keep_ceilingOfStages hq rest hrest).chain

theorem keep_ceilingOfStages {position bound c : Int} (hr : position ≤ bound) :
    ∀ stages : List Offset, ceilingOfStages bound stages = some c →
      StagesKeep s position c stages
  | [], h => by
    cases h
    refine ⟨id, fun p hp => ?_⟩
    cases hp
    exact hr
  | o :: rest, h => by
    obtain ⟨c', hfirst, hrest⟩ := Option.bind_eq_some_iff.mp h
    have hkeeps := keeps_ceiling hr o hfirst
    exact hkeeps.cons fun q hq => keep_ceilingOfStages hq rest hrest

end

end Offset

namespace Test

/-- How many octets a test asks for. -/
def size : Test → Nat
  | .integer t => t.width.octets
  | .real t => t.type.octets
  | .date t => t.scale.width.octets
  | .literal t => t.literal.length
  | .guid _ => Guid.size
  | .regex t => t.extender.count
  | .fallback _ | .unsupported .. | .bare .. => 0

theorem position_of_compareDecoded {offset : Offset} {size : Nat} {decode : Bytes → Value}
    {expected : Value} {o : Operator} {shown : Value → Option Text} {h : Hit}
    (hh : compareDecoded s offset size decode expected o shown = .ok (some h)) :
    ∀ q ∈ h.position, ∃ p, offset.resolve s 0 = .ok (some p) ∧ q = p + size := by
  obtain ⟨read, hread, hh⟩ := bind_eq_ok_iff.mp hh
  cases read with
  | none => cases hh
  | some read =>
    obtain ⟨p, raw⟩ := read
    obtain ⟨matched, -, hh⟩ := bind_eq_ok_iff.mp hh
    cases matched with
    | false => cases hh
    | true =>
      cases hh
      intro q hq
      cases hq
      refine ⟨p, ?_, rfl⟩
      obtain ⟨position, hposition, hread⟩ :=
        bind_eq_ok_iff.mp (ProbeFault.ofRead_eq_ok_iff.mp hread)
      cases position with
      | none => cases hread
      | some p' =>
        obtain ⟨raw', -, hread⟩ := bind_eq_ok_iff.mp hread
        split at hread
        · cases hread
        · cases hread
          exact hposition

/-- Where a message starts to read, regular expressions apart. -/
theorem position_of_hit {t : Test} {h : Hit} (hregex : ∀ r, t ≠ .regex r)
    (hh : t.hit s = .ok (some h)) :
    ∀ q ∈ h.position, ∃ p, t.offset.resolve s 0 = .ok (some p) ∧ q = p + t.size := by
  unfold hit at hh
  cases t with
  | integer t => exact position_of_compareDecoded hh
  | real t => exact position_of_compareDecoded hh
  | date t => exact position_of_compareDecoded hh
  | literal t => exact position_of_compareDecoded hh
  | guid t => exact position_of_compareDecoded hh
  | regex t => exact absurd rfl (hregex t)
  | fallback offset =>
    obtain ⟨position, hposition, hh⟩ := bind_eq_ok_iff.mp hh
    cases hh
    intro q hq
    subst hq
    exact ⟨q, ProbeFault.ofRead_eq_ok_iff.mp hposition, (Int.add_zero q).symm⟩
  | unsupported keyword offset value => cases hh
  | bare offset operator expected =>
    obtain ⟨read, -, hh⟩ := bind_eq_ok_iff.mp hh
    cases read <;> cases hh

instance (t : Test) : Decidable t.Comparable :=
  match t with
  | .integer t => inferInstanceAs (Decidable (t.operator = .any ∨ t.expected.isSome))
  | .real t => inferInstanceAs (Decidable (t.operator = .any ∨ t.expected.isSome))
  | .date t => inferInstanceAs (Decidable (t.operator = .any ∨ t.expected.isSome))
  | .guid t => inferInstanceAs (Decidable (t.operator = .any ∨ t.literal.isSome))
  | .literal _ | .regex _ | .fallback _ | .unsupported .. => inferInstanceAs (Decidable True)
  | .bare .. => inferInstanceAs (Decidable False)

/-- Whatever the content, the test stays within the bound of positions. -/
def isNear (t : Test) : Bool :=
  match t.offset.ceiling 0 with
  | none => false
  | some c => c < Stream.positionLimit && t.size < Stream.positionLimit &&
      c + t.size < Stream.positionLimit

theorem isNear_iff {t : Test} : t.isNear = true ↔ ∃ c, t.offset.ceiling 0 = some c ∧
    c < Stream.positionLimit ∧ t.size < Stream.positionLimit ∧
    c + t.size < Stream.positionLimit := by
  unfold isNear
  cases t.offset.ceiling 0 with
  | none => simp
  | some c => simp [and_assoc]

theorem not_looksBeyond {t : Test} {p : Int} (hp : p < Stream.positionLimit)
    (hsize : t.size < Stream.positionLimit) : ¬ t.LooksBeyond p := by
  have hbeyond := Stream.not_beyond hp hsize
  cases t with
  | regex t =>
    intro h
    rcases h with ⟨-, -, h | ⟨-, h⟩⟩
    · exact Int.not_le.mpr hp h
    · exact Int.not_le.mpr hsize h
  | fallback _ => exact id
  | unsupported => exact id
  | bare => exact id
  | _ => exact hbeyond

theorem not_reachesBeyond {t : Test} (h : t.isNear = true) : ¬ t.ReachesBeyond s := by
  obtain ⟨c, hc, hlt, hsize, -⟩ := isNear_iff.mp h
  have hkeeps := t.offset.keeps_ceiling (s := s) (Int.le_refl 0) hc
  have hnot : ¬ (t.offset.Overreaches s 0 ∨
      ∃ p, t.offset.resolve s 0 = .ok (some p) ∧ t.LooksBeyond p) := by
    intro hlooks
    rcases hlooks with h | ⟨p, hp, h⟩
    · exact hkeeps.within h
    · exact not_looksBeyond (Int.lt_of_le_of_lt (hkeeps.le p hp) hlt) hsize h
  cases t with
  | unsupported => exact id
  | _ => exact hnot

end Test

namespace Entry

def isRegex (e : Entry) : Bool :=
  match e.test with
  | .regex _ => true
  | _ => false

/-- The entry never strains, as can be seen without any content. -/
def isCalm (e : Entry) : Bool :=
  decide (e.test.operator ∈ e.test.operators) && decide e.test.Comparable && e.test.isNear &&
    (Template.pieces e.message).all fun
      | .char _ => true
      | .conversion c => decide c.Formats && !e.isRegex

theorem evaluate_isOk (hs : s.InMemory) {e : Entry} (h : e.isCalm = true) :
    ¬ Fails (e.test.evaluate s e.message) := by
  simp only [isCalm, Bool.and_eq_true, decide_eq_true_eq, List.all_eq_true] at h
  obtain ⟨⟨⟨ho, hcomparable⟩, hnear⟩, hpieces⟩ := h
  rw [Test.evaluate_fails_iff hs ho hcomparable]
  intro hstrains
  rcases hstrains with hbeyond | ⟨hit, hhit, hfaults⟩
  · exact Test.not_reachesBeyond hnear hbeyond
  · have hformats : ∀ c, .conversion c ∈ Template.pieces e.message →
        c.Formats ∧ e.isRegex = false := by
      intro c hc
      simpa using hpieces _ hc
    refine Template.not_faults hs hit.shown ?_ (fun c hc => (hformats c hc).1) hfaults
    intro c hc q hq
    have hregex : ∀ r, e.test ≠ .regex r := by
      intro r hr
      have hno := (hformats c hc).2
      rw [isRegex, hr] at hno
      cases hno
    obtain ⟨p, hp, rfl⟩ := Test.position_of_hit hregex hhit q hq
    obtain ⟨bound, hbound, -, -, hlt⟩ := Test.isNear_iff.mp hnear
    have hle := (e.test.offset.keeps_ceiling (Int.le_refl 0) hbound).le p hp
    omega

end Entry

namespace Scan

/-- A database of entries that never strain always has an answer. -/
theorem matching_isOk (hs : s.InMemory) {d : Database}
    (h : (Forest.toEntries d.rules).all Entry.isCalm = true) :
    ∃ messages, d.matching s = .ok messages := by
  rw [matching_eq_run_toEntries]
  cases hrun : run s (Forest.toEntries d.rules) with
  | ok messages => exact ⟨messages, rfl⟩
  | error f =>
    obtain ⟨before, e, after, -, heq, -, -, hf⟩ := run_eq_error_iff.mp hrun
    have hcalm := List.all_eq_true.mp h e (by simp [heq])
    exact absurd ⟨f, hf⟩ (Entry.evaluate_isOk hs hcalm)

end Scan
end FileMagic
