import FileMagic.Proofs.Comparison
import FileMagic.Proofs.Figures

/-! # Identifiers

The sixteen octets of an identifier have a canonical form: two capital digits for each, in groups
with hyphens between them. A test compares this form with the upper case of its literal, so what it
is equal to are the octets that the digits of the literal spell, in either case and in their order,
and no others (`evaluate_iff_canonical`). -/

namespace FileMagic

open Numeral (Digit)

namespace Guid

/-- Two capital digits for each octet, the higher one first. -/
def digits (b : Bytes) : Text :=
  b.flatMap fun o => [(o.toNat / 16).digitChar.toUpper, (o.toNat % 16).digitChar.toUpper]

/-- Groups of 8, 4, 4 and 4 characters and one of the others. -/
def hyphenated (t : Text) : Text :=
  t.take 8 ++ '-' :: (t.drop 8).take 4 ++ '-' :: (t.drop 12).take 4 ++ '-' :: (t.drop 16).take 4 ++
    '-' :: t.drop 20

def canonical (b : Bytes) : Text := hyphenated (digits b)

/-- Pairs of digits, in either case, and the octets that they stand for. -/
inductive Spells : Text → Bytes → Prop
  | nil : Spells [] []
  | cons {c c' : Char} {high low : Nat} {t : Text} {b : Bytes} :
    Digit 16 c high → Digit 16 c' low → Spells t b →
    Spells (c :: c' :: t) (UInt8.ofNat (16 * high + low) :: b)

/-! ## The form that the engine writes -/

theorem digits_cons (o : UInt8) (b : Bytes) : digits (o :: b) =
    (o.toNat / 16).digitChar.toUpper :: (o.toNat % 16).digitChar.toUpper :: digits b := rfl

theorem octetText_eq (o : UInt8) : octetText o = digits [o] := by
  have hzero : Text.upperHexDigit '0' = (0 : Nat).digitChar.toUpper := by decide
  have hcapital : ∀ d < 16, Text.upperHexDigit d.digitChar = d.digitChar.toUpper := by decide
  have hlow : o.toNat % 16 < 16 := Nat.mod_lt _ (by omega)
  have ho := o.toNat_lt
  rw [octetText, Text.hexOfNat, digits_cons, Nat.toDigits_eq_if (by omega)]
  split
  · next hlt =>
    rw [Nat.div_eq_of_lt hlt, Nat.mod_eq_of_lt hlt]
    exact congrArg₂ (fun c c' => [c, c']) hzero (hcapital _ hlt)
  · next hge =>
    have hhigh : o.toNat / 16 < 16 := by omega
    rw [Nat.toDigits_of_lt_base hhigh]
    exact congrArg₂ (fun c c' => [c, c']) (hcapital _ hhigh) (hcapital _ hlow)

theorem digits_take (b : Bytes) (n : Nat) : digits (b.take n) = (digits b).take (2 * n) := by
  induction b generalizing n with
  | nil => simp [digits]
  | cons o rest ih =>
    cases n with
    | zero => rfl
    | succ n => rw [List.take_succ_cons, digits_cons, digits_cons, ih]; rfl

theorem digits_drop (b : Bytes) (n : Nat) : digits (b.drop n) = (digits b).drop (2 * n) := by
  induction b generalizing n with
  | nil => simp [digits]
  | cons o rest ih =>
    cases n with
    | zero => rfl
    | succ n => rw [List.drop_succ_cons, digits_cons, ih]; rfl

theorem flatMap_octetText (b : Bytes) : b.flatMap octetText = digits b :=
  List.flatMap_congr fun o _ => octetText_eq o

theorem text_eq_canonical {b : Bytes} (h : b.length = size) : text b = canonical b := by
  have hlast : (b.drop 10).take 6 = b.drop 10 := by
    refine List.take_of_length_le ?_
    rw [List.length_drop, h]
    decide
  simp [text, groups, grouped, Text.join, flatMap_octetText, hlast, digits_take, digits_drop,
    canonical, hyphenated]

/-! ## From the form back to the octets -/

theorem filter_hyphenated (t : Text) :
    (hyphenated t).filter (· ≠ '-') = t.filter (· ≠ '-') := by
  have hgroups : t = t.take 8 ++ ((t.drop 8).take 4 ++ ((t.drop 12).take 4 ++
      ((t.drop 16).take 4 ++ t.drop 20))) := by
    have hdrop : ∀ n, t.drop n = (t.drop n).take 4 ++ t.drop (n + 4) := fun n => by
      rw [← List.drop_drop, List.take_append_drop]
    rw [← hdrop 16, ← hdrop 12, ← hdrop 8, List.take_append_drop]
  conv_rhs => rw [hgroups]
  simp [hyphenated]

theorem digits_filter (b : Bytes) : (digits b).filter (· ≠ '-') = digits b := by
  have hdigit : ∀ d < 16, d.digitChar.toUpper ≠ '-' := by decide
  refine List.filter_eq_self.mpr fun c hc => ?_
  obtain ⟨o, -, ho⟩ := List.mem_flatMap.mp hc
  have hlt := o.toNat_lt
  simp only [List.mem_cons, List.not_mem_nil, or_false] at ho
  rcases ho with rfl | rfl
  · exact decide_eq_true (hdigit _ (by omega))
  · exact decide_eq_true (hdigit _ (by omega))

theorem digits_injective {b b' : Bytes} (h : digits b = digits b') : b = b' := by
  have hdigit : ∀ m < 16, ∀ n < 16, m.digitChar.toUpper = n.digitChar.toUpper → m = n := by decide
  induction b generalizing b' with
  | nil =>
    cases b' with
    | nil => rfl
    | cons o rest => cases h
  | cons o rest ih =>
    cases b' with
    | nil => cases h
    | cons o' rest' =>
      rw [digits_cons, digits_cons, List.cons.injEq, List.cons.injEq] at h
      obtain ⟨hhigh, hlow, hrest⟩ := h
      have ho := o.toNat_lt
      have ho' := o'.toNat_lt
      have hhigh' := hdigit _ (by omega) _ (by omega) hhigh
      have hlow' := hdigit _ (by omega) _ (by omega) hlow
      rw [ih hrest, UInt8.toNat_inj.mp (show o.toNat = o'.toNat by omega)]

theorem canonical_injective {b b' : Bytes} (h : canonical b = canonical b') : b = b' := by
  have hdigits := congrArg (List.filter (· ≠ '-')) h
  rw [canonical, canonical, filter_hyphenated, filter_hyphenated, digits_filter, digits_filter]
    at hdigits
  exact digits_injective hdigits

/-! ## Literals in any mix of cases -/

theorem mem_hyphenated {c : Char} {t : Text} (h : c ∈ hyphenated t) : c = '-' ∨ c ∈ t := by
  by_cases hc : c = '-'
  · exact .inl hc
  · have hmem : c ∈ (hyphenated t).filter (· ≠ '-') := List.mem_filter.mpr ⟨h, decide_eq_true hc⟩
    rw [filter_hyphenated] at hmem
    exact .inr (List.mem_filter.mp hmem).1

theorem map_hyphenated {f : Char → Char} (hf : f '-' = '-') (t : Text) :
    (hyphenated t).map f = hyphenated (t.map f) := by
  simp [hyphenated, hf]

theorem upperChar_of_digit {c : Char} {v : Nat} (h : Digit 16 c v) :
    upperChar c = [v.digitChar.toUpper] ∧ c.toUpper = v.digitChar.toUpper := by
  have hall : ∀ v < 16, upperChar v.digitChar = [v.digitChar.toUpper] ∧
      upperChar v.digitChar.toUpper = [v.digitChar.toUpper] ∧
      v.digitChar.toUpper.toUpper = v.digitChar.toUpper := by decide
  obtain ⟨hv, rfl | rfl⟩ := h
  · exact ⟨(hall v hv).1, rfl⟩
  · exact (hall v hv).2

variable {t : Text} {b : Bytes}

theorem exists_spells {n : Nat} (hlength : t.length = 2 * n)
    (hdigits : ∀ c ∈ t, ∃ v, Digit 16 c v) : ∃ b, b.length = n ∧ Spells t b := by
  induction n generalizing t with
  | zero =>
    obtain rfl := List.eq_nil_of_length_eq_zero hlength
    exact ⟨[], rfl, .nil⟩
  | succ n ih =>
    match t, hlength with
    | c :: c' :: rest, hlength =>
      obtain ⟨⟨high, hhigh⟩, ⟨low, hlow⟩, hrest⟩ := by
        simpa only [List.forall_mem_cons] using hdigits
      simp only [List.length_cons] at hlength
      obtain ⟨b, hb, hspells⟩ := ih (by omega) hrest
      exact ⟨_, congrArg (· + 1) hb, .cons hhigh hlow hspells⟩

theorem Spells.digit (h : Spells t b) : ∀ c ∈ t, ∃ v, Digit 16 c v := by
  induction h with
  | nil => exact nofun
  | cons hhigh hlow _ ih =>
    exact List.forall_mem_cons.mpr ⟨⟨_, hhigh⟩, List.forall_mem_cons.mpr ⟨⟨_, hlow⟩, ih⟩⟩

theorem Spells.map_toUpper (h : Spells t b) : t.map Char.toUpper = digits b := by
  induction h with
  | nil => rfl
  | @cons c c' high low t b hhigh hlow _ ih =>
    have hbound := hhigh.1
    have hbound' := hlow.1
    have hvalue : (UInt8.ofNat (16 * high + low)).toNat = 16 * high + low := by
      rw [UInt8.toNat_ofNat']
      omega
    have hdiv : (16 * high + low) / 16 = high := by omega
    have hmod : (16 * high + low) % 16 = low := by omega
    rw [digits_cons, hvalue, hdiv, hmod, List.map_cons, List.map_cons, ih,
      (upperChar_of_digit hhigh).2, (upperChar_of_digit hlow).2]

/-- Cases do not matter to what is spelled. -/
theorem Spells.upper_hyphenated (h : Spells t b) : (hyphenated t).upper = canonical b := by
  have hupper : ∀ c ∈ hyphenated t, upperChar c = [c.toUpper] := by
    intro c hc
    rcases mem_hyphenated hc with rfl | hmem
    · decide
    · obtain ⟨v, hv⟩ := h.digit c hmem
      obtain ⟨hchar, hcase⟩ := upperChar_of_digit hv
      rw [hchar, hcase]
  rw [Text.upper, List.flatMap_congr hupper, ← List.map_eq_flatMap, map_hyphenated rfl,
    h.map_toUpper, canonical]

end Guid

/-! ## Tests for identifiers -/

theorem Value.compare_text (t u : Text) {o : Operator} (ho : o.isEquality = true) :
    compare (.text t) (.text u) o = .ok (decide (t = u ↔ o = .equal)) := by
  have hmap : t.map Char.toNat = u.map Char.toNat ↔ t = u :=
    List.map_inj_right fun _ _ h => Char.toNat_inj.mp h
  cases o with
  | equal => simp [compare, order?, Operator.holds, lexicographic_eq_iff, hmap]
  | notEqual => simp [compare, order?, Operator.holds, lexicographic_eq_iff, hmap]
  | _ => cases ho

namespace GuidTest

/-- The octets that a test for an identifier looks at, if they are there. -/
def octets? (content : Bytes) (position : Option Int) : Option Bytes :=
  position.bind (Bytes.at? content · Guid.size)

end GuidTest

namespace Test

open GuidTest
open Guid (canonical hyphenated Spells)

variable {s : Stream} {offset : Offset} {position : Option Int} {p : Int} {b : Bytes}
  {o : Operator}

/-- The test that compares octets with what a literal names. -/
abbrev ofIdentifier (offset : Offset) (o : Operator) (literal : Option Text) : Test :=
  .guid (.make offset o literal)

theorem hit_ofIdentifier (hs : s.Readable) (hoffset : offset.LeadsTo s position)
    (ho : o.isEquality = true) (t : Text) : (ofIdentifier offset o (some t)).hit s =
      .ok (position.bind fun p => (Bytes.at? s.content p Guid.size).bind fun b =>
        if decide (Guid.text b = t.upper ↔ o = .equal) then some ⟨some (p + Guid.size), none⟩
        else none) := by
  rw [hit]
  exact compareDecoded_eq hs hoffset (by decide) (Stream.lt_sizeLimit (by decide) _) fun raw =>
    Value.compare_text (Guid.text raw) t.upper ho

theorem mem_operators_ofIdentifier (ho : o.isEquality = true) (literal : Option Text) :
    (ofIdentifier offset o literal).operator ∈ (ofIdentifier offset o literal).operators := by
  cases o with
  | equal => exact List.mem_cons_self
  | notEqual => exact List.mem_cons_of_mem _ List.mem_cons_self
  | _ => cases ho

theorem evaluate_ofIdentifier_eq_none_iff (hs : s.Readable) (hoffset : offset.LeadsTo s position)
    (ho : o.isEquality = true) (t template : Text) :
    (ofIdentifier offset o (some t)).evaluate s template = .ok none ↔
      ∀ b ∈ octets? s.content position, ¬ (canonical b = t.upper ↔ o = .equal) := by
  rw [evaluate_eq_none_iff_of_hit (mem_operators_ofIdentifier ho _)
    (hit_ofIdentifier hs hoffset ho t), octets?]
  cases position with
  | none => exact iff_of_true rfl nofun
  | some p =>
    rw [Option.bind_some, Option.bind_some]
    cases hat : Bytes.at? s.content p Guid.size with
    | none => exact iff_of_true rfl nofun
    | some b =>
      rw [Option.bind_some, Guid.text_eq_canonical (Bytes.length_of_at? hat)]
      simp

theorem evaluate_equal_eq_none_iff (hs : s.Readable) (hoffset : offset.LeadsTo s position)
    (t template : Text) :
    (ofIdentifier offset .equal (some t)).evaluate s template = .ok none ↔
      ∀ b ∈ octets? s.content position, canonical b ≠ t.upper := by
  rw [evaluate_ofIdentifier_eq_none_iff hs hoffset rfl]
  simp only [iff_true, ne_eq]

theorem evaluate_notEqual_eq_none_iff (hs : s.Readable) (hoffset : offset.LeadsTo s position)
    (t template : Text) :
    (ofIdentifier offset .notEqual (some t)).evaluate s template = .ok none ↔
      ¬ ((octets? s.content position).isSome ∧
        (ofIdentifier offset .equal (some t)).evaluate s template = .ok none) := by
  rw [evaluate_equal_eq_none_iff hs hoffset, evaluate_ofIdentifier_eq_none_iff hs hoffset rfl]
  cases octets? s.content position with
  | none => exact iff_of_true nofun nofun
  | some b => simp

theorem evaluate_ofIdentifier_of_mem (hs : s.Readable) (hoffset : offset.LeadsTo s (some p))
    (ho : o.isEquality = true) {t : Text} (hb : b ∈ octets? s.content (some p))
    (h : canonical b = t.upper ↔ o = .equal) (template : Text) :
    (ofIdentifier offset o (some t)).evaluate s template =
      (Template.render s (some (p + Guid.size)) template none).map some := by
  have hat : Bytes.at? s.content p Guid.size = some b := hb
  have hhit := hit_ofIdentifier hs hoffset ho t
  rw [Option.bind_some, hat, Option.bind_some, Guid.text_eq_canonical (Bytes.length_of_at? hat),
    if_pos (decide_eq_true h)] at hhit
  exact evaluate_of_hit (mem_operators_ofIdentifier ho _) hhit template

/-- Operators of order are refused before anything is read. -/
theorem evaluate_ofIdentifier_of_order (s : Stream) (offset : Offset) (literal : Option Text)
    (template : Text) (ho : o ∈ [Operator.greater, .less, .atLeast, .atMost]) :
    (ofIdentifier offset o literal).evaluate s template =
      .error (.operator o (some "guid".toList)) := by
  have hrefused : ∀ o ∈ [Operator.greater, .less, .atLeast, .atMost],
      o ∉ Operator.equalities := by decide
  exact evaluate_of_not_mem (t := ofIdentifier offset o literal) (hrefused o ho)

end Test

namespace GuidTest

open Test
open Guid (canonical hyphenated Spells)

/-- When a test for an identifier matches and with which message, that it is for no other octets
than its literal spells, in any mix of cases, and which operators it refuses. -/
theorem evaluate_iff_canonical :
    (∀ (s : Stream) (offset : Offset) (position : Option Int), s.Readable →
      offset.LeadsTo s position → ∀ t template,
      (∀ b ∈ octets? s.content position,
        ((ofIdentifier offset .equal (some t)).evaluate s template = .ok none ↔
          canonical b ≠ t.upper)) ∧
      ((ofIdentifier offset .notEqual (some t)).evaluate s template = .ok none ↔
        ¬ ((octets? s.content position).isSome ∧
          (ofIdentifier offset .equal (some t)).evaluate s template = .ok none)) ∧
      ∀ p ∈ position, ∀ b ∈ octets? s.content position,
        (canonical b = t.upper → (ofIdentifier offset .equal (some t)).evaluate s template =
          (Template.render s (some (p + Guid.size)) template none).map some) ∧
        (canonical b ≠ t.upper → (ofIdentifier offset .notEqual (some t)).evaluate s template =
          (Template.render s (some (p + Guid.size)) template none).map some)) ∧
    (∀ digits : Text, digits.length = 32 → (∀ c ∈ digits, ∃ v, Digit 16 c v) →
      ∃ b, Spells digits b ∧ b.length = Guid.size ∧
        ∀ b', canonical b' = (hyphenated digits).upper ↔ b' = b) ∧
    (∀ b b', canonical b = canonical b' → b = b') ∧
    ∀ (s : Stream) (offset : Offset) (literal : Option Text) (template : Text),
      ∀ o ∈ [Operator.greater, .less, .atLeast, .atMost],
        (ofIdentifier offset o literal).evaluate s template =
          .error (.operator o (some "guid".toList)) := by
  refine ⟨fun s offset position hs hoffset t template => ⟨fun b hb => ?_, ?_, ?_⟩,
    fun digits hlength hdigits => ?_, fun b b' h => Guid.canonical_injective h,
    fun s offset literal template o ho => ?_⟩
  · rw [evaluate_equal_eq_none_iff hs hoffset, Option.mem_def.mp hb]
    exact ⟨fun h => h b rfl, fun h b' hb' => Option.some.inj hb' ▸ h⟩
  · exact evaluate_notEqual_eq_none_iff hs hoffset t template
  · rintro p rfl b hb
    refine ⟨fun h => ?_, fun h => ?_⟩
    · exact evaluate_ofIdentifier_of_mem hs hoffset rfl hb (iff_of_true h rfl) template
    · exact evaluate_ofIdentifier_of_mem (o := .notEqual) hs hoffset rfl hb
        (iff_of_false h (by decide)) template
  · obtain ⟨b, hb, hspells⟩ := Guid.exists_spells (n := 16) hlength hdigits
    refine ⟨b, hspells, hb, fun b' => ?_⟩
    rw [hspells.upper_hyphenated]
    exact ⟨Guid.canonical_injective, congrArg canonical⟩
  · exact evaluate_ofIdentifier_of_order s offset literal template ho

/-- The letters of the literal are of both cases; the stream does not have to be open to refuse an
operator. -/
theorem evaluate_iff_canonical_mixed_case :
    let b : Bytes := [0x00, 0x11, 0x22, 0x33, 0x44, 0x55, 0x66, 0x77, 0x88, 0x99, 0xaa, 0xbb, 0xcc,
      0xdd, 0xee, 0xff]
    let s : Stream := .ofBytes (7 :: b)
    let digits : Text := "00112233445566778899aAbBcCdDeEfF".toList
    let literal : Text := "00112233-4455-6677-8899-aAbBcCdDeEfF".toList
    s.Readable ∧ (Offset.fixed 1).LeadsTo s (some 1) ∧ b ∈ octets? s.content (some 1) ∧
      literal = hyphenated digits ∧ (∃ b', Spells digits b' ∧ b'.length = Guid.size) ∧
      (ofIdentifier (.fixed 1) .equal (some literal)).evaluate s "id".toList =
        .ok (some "id".toList) ∧
      (ofIdentifier (.fixed 1) .notEqual (some literal)).evaluate s "id".toList = .ok none ∧
      (ofIdentifier (.fixed 1) .less (some literal)).evaluate { s with isOpen := false } [] =
        .error (.operator .less (some "guid".toList)) := by
  intro b s digits literal
  have hs : s.Readable := ⟨⟨rfl, nofun⟩, by decide⟩
  have hoffset : (Offset.fixed 1).LeadsTo s (some 1) := Offset.leadsTo_fixed s (by decide)
  have hb : b ∈ octets? s.content (some 1) := by decide
  have hcanonical : canonical b = literal.upper := by decide
  have hfigures : ∀ c ∈ digits, (Numeral.figure? c).isSome = true := List.all_eq_true.mp rfl
  have hdigits : ∀ c ∈ digits, ∃ v, Digit 16 c v := by
    intro c hc
    obtain ⟨v, hv⟩ := Option.isSome_iff_exists.mp (hfigures c hc)
    exact ⟨v, Numeral.figure?_eq_some_iff.mp hv⟩
  obtain ⟨hevaluate, hspells, -, hrefused⟩ := evaluate_iff_canonical
  obtain ⟨hequal, hnotEqual, hmessage⟩ := hevaluate s _ _ hs hoffset literal "id".toList
  obtain ⟨b', hb', hlength, -⟩ := hspells digits rfl hdigits
  refine ⟨hs, hoffset, hb, rfl, ⟨b', hb', hlength⟩, ?_, ?_, ?_⟩
  · rw [(hmessage 1 rfl b hb).1 hcanonical]
    rfl
  · rw [hnotEqual, hequal b hb]
    exact fun h => h.2 hcanonical
  · exact hrefused _ _ _ _ .less (by decide)

end GuidTest
end FileMagic
