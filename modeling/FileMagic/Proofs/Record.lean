import FileMagic.Proofs.Rendering
import FileMagic.Proofs.Signature
import FileMagic.Proofs.Utf8

/-! # Rendering undoes the encoding of a record

A record is a sequence of literal texts and of fields. Its template writes the literals with
every per cent sign doubled and a conversion for each field; its octets are those of the fields
alone, texts in UTF-8 with a zero octet after them and integers in four octets. Wherever the
octets are found, the template renders there what the record prints (`render_record`): a segment
gives its own part and leaves the position behind its own octets, whatever follows it in the
template and in the content. -/

namespace FileMagic

namespace ByteOrder

theorem encodeLittle_succ (size n : Nat) :
    encodeLittle (size + 1) n = UInt8.ofNat (n % 256) :: encodeLittle size (n / 256) := rfl

theorem decodeLittle_encodeLittle {size n : Nat} (h : n < 256 ^ size) :
    decodeLittle (encodeLittle size n) = n := by
  induction size generalizing n with
  | zero =>
    rw [Nat.pow_zero, Nat.lt_one_iff] at h
    rw [h]
    rfl
  | succ size ih =>
    rw [Nat.pow_succ, Nat.mul_comm] at h
    have hrest : n / 256 < 256 ^ size := Nat.div_lt_of_lt_mul h
    have hfirst : (UInt8.ofNat (n % 256)).toNat = n % 256 :=
      UInt8.toNat_ofNat_of_lt' (Nat.mod_lt n (by decide))
    rw [encodeLittle_succ, decodeLittle_cons, ih hrest, hfirst]
    omega

end ByteOrder

namespace Width

/-- Octets of an unsigned integer. -/
theorem decode_encodeLittle (w : Width) {n : Nat} (h : n < 2 ^ w.bits) :
    w.decode false .little (ByteOrder.encodeLittle w.octets n) = n := by
  have hdecode : ByteOrder.decodeLittle (ByteOrder.encodeLittle w.octets n) = n :=
    ByteOrder.decodeLittle_encodeLittle (w.pow_octets ▸ h)
  have hmod : (n : Int) % 2 ^ w.bits = n := Int.emod_eq_of_lt (by omega) (by exact_mod_cast h)
  simp only [decode, Endianness.order, ByteOrder.decode, hdecode, wrap, hmod, Bool.false_and,
    Bool.false_eq_true, if_false]

/-- Octets of a signed integer in two's complement. -/
theorem decode_encodeLittle_signed (w : Width) {n : Int} (hl : -2 ^ (w.bits - 1) ≤ n)
    (hh : n < 2 ^ (w.bits - 1)) :
    w.decode true .little (ByteOrder.encodeLittle w.octets (n % 2 ^ w.bits).toNat) = n := by
  have htwo := w.two_pow_bits
  have hpos : (0 : Int) < 2 ^ (w.bits - 1) := Int.pow_pos (by decide)
  have hnonneg : 0 ≤ n % 2 ^ w.bits := Int.emod_nonneg n (by omega)
  have hlt : n % 2 ^ w.bits < 2 ^ w.bits := Int.emod_lt_of_pos n (by omega)
  have hdecode : ByteOrder.decodeLittle
      (ByteOrder.encodeLittle w.octets (n % 2 ^ w.bits).toNat) = (n % 2 ^ w.bits).toNat :=
    ByteOrder.decodeLittle_encodeLittle (w.residue_lt n)
  simp only [decode, Endianness.order, ByteOrder.decode, hdecode, wrap,
    Int.toNat_of_nonneg hnonneg, Int.emod_emod, Bool.true_and, decide_eq_true_eq]
  by_cases hneg : n < 0
  · have hmod : n % 2 ^ w.bits = n + 2 ^ w.bits := by
      rw [← Int.add_emod_right, Int.emod_eq_of_lt (by omega) (by omega)]
    rw [hmod, if_pos (by omega)]
    omega
  · have hmod : n % 2 ^ w.bits = n := Int.emod_eq_of_lt (by omega) (by omega)
    rw [hmod, if_neg (by omega)]

end Width

namespace Template

variable {s : Stream} {p : Int}

/-- A conversion that says nothing about its layout. -/
def bareConversion (kind : ConversionKind) : Conversion := ⟨[], [], none, kind⟩

theorem read?_letter {letter : Char} {kind : ConversionKind}
    (h : ConversionKind.ofLetter? letter = some kind) (rest : Text) :
    Conversion.read? (letter :: rest) = some (bareConversion kind, rest) := by
  unfold ConversionKind.ofLetter? at h
  split at h <;> cases h <;> rfl

theorem pieces_char {c : Char} (h : c ≠ '%') (rest : Text) :
    pieces (c :: rest) = .char c :: pieces rest := by
  rw [pieces, piecesAfter, if_neg h]
  rfl

theorem pieces_letter {letter : Char} {kind : ConversionKind}
    (h : ConversionKind.ofLetter? letter = some kind) (rest : Text) :
    pieces ('%' :: letter :: rest) = .conversion (bareConversion kind) :: pieces rest := by
  have hskip : (letter :: rest).length - rest.length = 1 := by simp
  rw [pieces, piecesAfter, if_pos rfl, read?_letter h]
  simp only [hskip]
  rfl

/-- What a conversion gives stands before what the rest of the template gives after it. -/
theorem renderPieces_letter {letter : Char} {kind : ConversionKind} {position after : Option Int}
    {out : Text} (h : ConversionKind.ofLetter? letter = some kind)
    (hr : renderConversion s none position (bareConversion kind) = .ok (out, after))
    (rest : Text) : renderPieces s none position (pieces ('%' :: letter :: rest)) =
      (renderPieces s none after (pieces rest)).map (out ++ ·) := by
  rw [pieces_letter h, renderPieces, hr, ok_bind]
  exact bind_pure_comp _ _

theorem layout_bare (kind : ConversionKind) :
    (bareConversion kind).layout = .ok ⟨false, false, false, false, false, 0, none⟩ := rfl

theorem padStart_zero (t : Text) : Text.padStart 0 ' ' t = t :=
  Text.padStart_of_le (Nat.zero_le _) ' '

theorem formatText_bare (kind : ConversionKind) (t : Text) :
    (bareConversion kind).formatText t = .ok t := by
  rw [Conversion.formatText, layout_bare, Except.map, Conversion.layoutText]
  simp only [Bool.false_eq_true, if_false, padStart_zero]

theorem formatInteger_bare (kind : ConversionKind) (n : Int) :
    (bareConversion kind).formatInteger n =
      .ok (Text.sign n ++ (Conversion.digitsOf n.natAbs kind).2) := by
  rw [Conversion.formatInteger, layout_bare, ok_bind]
  by_cases hneg : n < 0
  · simp [Conversion.layoutInteger, Conversion.digitsLimit, Text.sign, hneg, padStart_zero,
      bareConversion]
  · simp [Conversion.layoutInteger, Conversion.digitsLimit, Text.sign, hneg, padStart_zero,
      bareConversion]

/-- The value of a whole integer at a position. -/
theorem readInteger_of_rest (hs : s.InMemory) (hp : p < Stream.positionLimit) {octets more : Bytes}
    (hl : octets.length = integerWidth.octets) (hr : s.rest p = octets ++ more) (signed : Bool) :
    readInteger s p signed = .ok (some (integerWidth.decode signed .little octets),
      p + octets.length) := by
  have hb := Stream.not_beyond hp (show (integerWidth.octets : Int) < _ by decide)
  have htake : (octets ++ more).take integerWidth.octets = octets := List.take_left' hl
  rw [readInteger, hs.readAt_of_not_beyond hb, ok_bind, Int.toNat_natCast, hr, htake]
  simp only [hl, ne_eq, not_true, if_false, pure_eq_ok, integerOf_eq_decode hl]

/-- The text before a zero octet. -/
theorem readText_of_rest (hs : s.InMemory) (hp : p < Stream.positionLimit) {octets more : Bytes}
    (hz : 0 ∉ octets) (hr : s.rest p = octets ++ 0 :: more) :
    readText s p = .ok (Utf8.decode octets, p + (octets.length + 1 : Nat)) := by
  have hwhile : (octets ++ 0 :: more).takeWhile (· ≠ 0) = octets := by
    rw [Stream.takeWhile_append_of_not_mem hz]
    simp
  have hlength : Conversion.textLength s p = octets.length + 1 := by
    rw [Conversion.textLength, hr, hwhile, List.length_append, List.length_cons]
    omega
  rw [readText_eq hs hp, hlength, hr, hwhile]

theorem renderConversion_text (hs : s.InMemory) (hp : p < Stream.positionLimit)
    {octets more : Bytes} (hz : 0 ∉ octets) (hr : s.rest p = octets ++ 0 :: more) :
    renderConversion s none (some p) (bareConversion .text) =
      .ok (Utf8.decode octets, some (p + (octets.length + 1 : Nat))) := by
  have hkind : (bareConversion .text).kind = .text := rfl
  simp only [renderConversion, hkind, renderText, readText_of_rest hs hp hz hr,
    ProbeFault.ofRead_ok, ok_bind, formatText_bare, pure_eq_ok]

/-- A conversion of an integer shows its sign and the digits of its magnitude. -/
theorem renderConversion_integer (hs : s.InMemory) (hp : p < Stream.positionLimit)
    (kind : ConversionKind) (hk : kind ≠ .percent ∧ kind ≠ .text) {octets more : Bytes}
    (hl : octets.length = integerWidth.octets) (hr : s.rest p = octets ++ more) {n : Int}
    (hn : integerWidth.decode (kind = .decimal true) .little octets = n) :
    renderConversion s none (some p) (bareConversion kind) =
      .ok (Text.sign n ++ (Conversion.digitsOf n.natAbs kind).2, some (p + octets.length)) := by
  have hread : renderInteger s (some p) (bareConversion kind) =
      .ok (Text.sign n ++ (Conversion.digitsOf n.natAbs kind).2, some (p + octets.length)) := by
    have hkind : (bareConversion kind).kind = kind := rfl
    simp only [renderInteger, hkind, readInteger_of_rest hs hp hl hr, hn, ProbeFault.ofRead_ok,
      ok_bind, formatInteger_bare, pure_eq_ok]
  cases kind with
  | percent => exact absurd rfl hk.1
  | text => exact absurd rfl hk.2
  | decimal signed => exact hread
  | hexadecimal capital => exact hread

end Template

/-- A part of a record. -/
inductive Segment where
  | literal (t : Text)
  | text (t : Text)
  /-- Converted by one of two letters. -/
  | signed (letter : Char) (n : Int)
  | unsigned (n : Nat)
  | hexadecimal (capital : Bool) (n : Nat)

namespace Segment

/-- Texts end at their zero octet and integers have 32 bits. -/
def Fits : Segment → Prop
  | .literal _ => True
  | .text t => '\x00' ∉ t
  | .signed letter n => (letter = 'd' ∨ letter = 'i') ∧ -2 ^ 31 ≤ n ∧ n < 2 ^ 31
  | .unsigned n => n < 2 ^ 32
  | .hexadecimal _ n => n < 2 ^ 32

/-- Every per cent sign doubled. -/
def escaped (t : Text) : Text := t.flatMap fun c => if c = '%' then ['%', '%'] else [c]

def template : Segment → Text
  | .literal t => escaped t
  | .text _ => ['%', 's']
  | .signed letter _ => ['%', letter]
  | .unsigned _ => ['%', 'u']
  | .hexadecimal capital _ => ['%', if capital then 'X' else 'x']

def octets : Segment → Bytes
  | .literal _ => []
  | .text t => t.utf8 ++ [0]
  | .signed _ n => ByteOrder.encodeLittle 4 (n % 2 ^ 32).toNat
  | .unsigned n => ByteOrder.encodeLittle 4 n
  | .hexadecimal _ n => ByteOrder.encodeLittle 4 n

def printed : Segment → Text
  | .literal t => t
  | .text t => t
  | .signed _ n => Text.ofInt n
  | .unsigned n => Text.ofNat n
  | .hexadecimal capital n =>
    if capital then (Text.hexOfNat n).map Char.toUpper else Text.hexOfNat n

open Template

variable {s : Stream} {p : Int}

/-- What stands before stays before. -/
theorem map_append_append {ε : Type} (x : Except ε Text) (a b : Text) :
    (x.map (b ++ ·)).map (a ++ ·) = x.map (a ++ b ++ ·) := by
  cases x with
  | error e => rfl
  | ok t => simp [Except.map]

theorem map_nil_append {ε : Type} (x : Except ε Text) : x.map (([] : Text) ++ ·) = x := by
  cases x with
  | error e => rfl
  | ok t => rfl

theorem renderPieces_literal (s : Stream) (position : Option Int) (t rest : Text) :
    renderPieces s none position (pieces (escaped t ++ rest)) =
      (renderPieces s none position (pieces rest)).map (t ++ ·) := by
  induction t with
  | nil => exact (map_nil_append _).symm
  | cons c t ih =>
    have hcons : (renderPieces s none position (pieces rest)).map (c :: t ++ ·) =
        (renderPieces s none position (pieces (escaped t ++ rest))).map ([c] ++ ·) := by
      rw [ih, map_append_append]
      rfl
    rw [hcons]
    by_cases hc : c = '%'
    · subst hc
      have hpercent : renderConversion s none position (bareConversion .percent) =
          .ok (['%'], position) := rfl
      exact renderPieces_letter (show ConversionKind.ofLetter? '%' = some .percent from rfl)
        hpercent (escaped t ++ rest)
    · have hesc : escaped (c :: t) = c :: escaped t := by simp [escaped, hc]
      rw [hesc, List.cons_append, pieces_char hc, renderPieces]
      exact bind_pure_comp _ _

theorem digit_of_mem_toDigits {base n : Nat} (hb : 1 < base) {c : Char}
    (h : c ∈ Nat.toDigits base n) : ∃ d < base, Nat.digitChar d = c := by
  induction n using Nat.strongRecOn with
  | ind n ih =>
    rw [Nat.toDigits_eq_if hb] at h
    split at h
    · next hlt =>
      rw [List.mem_singleton] at h
      exact ⟨n, hlt, h.symm⟩
    · next hge =>
      rcases List.mem_append.mp h with h | h
      · exact ih (n / base) (Nat.div_lt_self (by omega) hb) h
      · rw [List.mem_singleton] at h
        exact ⟨n % base, Nat.mod_lt n (by omega), h.symm⟩

theorem upperHexDigit_eq {n : Nat} :
    ∀ c ∈ Text.hexOfNat n, Text.upperHexDigit c = c.toUpper := by
  have hdigit : ∀ d < 16, Text.upperHexDigit (Nat.digitChar d) = (Nat.digitChar d).toUpper := by
    decide
  intro c hc
  obtain ⟨d, hd, rfl⟩ := digit_of_mem_toDigits (by decide) hc
  exact hdigit d hd

theorem printed_hexadecimal (capital : Bool) (n : Nat) :
    (Conversion.digitsOf n (.hexadecimal capital)).2 = (hexadecimal capital n).printed := by
  cases capital with
  | false => rfl
  | true => exact List.map_congr_left upperHexDigit_eq

/-- A segment gives its part and leaves the position behind its octets. -/
theorem renderPieces_segment (hs : s.InMemory) (hp : p < Stream.positionLimit) {segment : Segment}
    (hf : segment.Fits) {more : Bytes} (hr : s.rest p = segment.octets ++ more) (rest : Text) :
    renderPieces s none (some p) (pieces (segment.template ++ rest)) =
      (renderPieces s none (some (p + segment.octets.length)) (pieces rest)).map
        (segment.printed ++ ·) := by
  cases segment with
  | literal t =>
    rw [octets, List.length_nil, Int.natCast_zero, Int.add_zero]
    exact renderPieces_literal s (some p) t rest
  | text t =>
    rw [octets, List.append_assoc] at hr
    have hconversion := renderConversion_text hs hp (Utf8.zero_not_mem_utf8 hf) hr
    rw [Utf8.decode_utf8] at hconversion
    rw [octets, List.length_append]
    exact renderPieces_letter (show ConversionKind.ofLetter? 's' = some .text from rfl)
      hconversion rest
  | signed letter n =>
    obtain ⟨hletter, hlow, hhigh⟩ := hf
    have hkind : ConversionKind.ofLetter? letter = some (.decimal true) := by
      rcases hletter with rfl | rfl <;> rfl
    have hconversion := renderConversion_integer hs hp (.decimal true) ⟨nofun, nofun⟩
      (ByteOrder.length_encodeLittle ..) hr
      (integerWidth.decode_encodeLittle_signed hlow hhigh)
    exact renderPieces_letter hkind hconversion rest
  | unsigned n =>
    have hconversion := renderConversion_integer hs hp (.decimal false) ⟨nofun, nofun⟩
      (ByteOrder.length_encodeLittle ..) hr (integerWidth.decode_encodeLittle hf)
    exact renderPieces_letter
      (show ConversionKind.ofLetter? 'u' = some (.decimal false) from rfl) hconversion rest
  | hexadecimal capital n =>
    have hconversion := renderConversion_integer hs hp (.hexadecimal capital) ⟨nofun, nofun⟩
      (ByteOrder.length_encodeLittle ..) hr (integerWidth.decode_encodeLittle hf)
    have hletter : ConversionKind.ofLetter? (if capital then 'X' else 'x') =
        some (.hexadecimal capital) := by
      cases capital <;> rfl
    rw [← printed_hexadecimal]
    exact renderPieces_letter hletter hconversion rest

/-- The position of each segment is behind the octets of those before it. -/
theorem renderPieces_segments (hs : s.InMemory) (hp : p < Stream.positionLimit)
    {segments : List Segment} (hf : ∀ segment ∈ segments, segment.Fits) {more : Bytes}
    (hr : s.rest p = segments.flatMap octets ++ more) :
    renderPieces s none (some p) (pieces (segments.flatMap template)) =
      .ok (segments.flatMap printed) := by
  induction segments generalizing p with
  | nil => rfl
  | cons segment rest ih =>
    obtain ⟨hfirst, hrest⟩ := List.forall_mem_cons.mp hf
    rw [List.flatMap_cons, List.append_assoc] at hr
    have hlen : segment.octets.length ≤ (s.rest p).length := by
      rw [hr, List.length_append]
      exact Nat.le_add_right ..
    have hnext : s.rest (p + segment.octets.length) = rest.flatMap octets ++ more := by
      rw [Stream.rest_add hlen, hr, List.drop_left]
    rw [List.flatMap_cons, renderPieces_segment hs hp hfirst hr,
      ih (hs.advance_lt hp hlen) hrest hnext]
    rfl

/-- A template over the octets of its record prints the record, wherever they are found. -/
theorem render_record {segments : List Segment} (hf : ∀ segment ∈ segments, segment.Fits)
    (before after : Bytes)
    (hl : ((before ++ segments.flatMap octets ++ after).length : Int) < Stream.positionLimit) :
    render (.ofBytes (before ++ segments.flatMap octets ++ after)) (some before.length)
      (segments.flatMap template) none = .ok (segments.flatMap printed) := by
  have hs := Stream.inMemory_ofBytes hl
  have hp : (before.length : Int) < Stream.positionLimit := by
    rw [List.length_append, List.length_append] at hl
    omega
  have hrest : (Stream.ofBytes (before ++ segments.flatMap octets ++ after)).rest before.length =
      segments.flatMap octets ++ after := by
    rw [Stream.rest, if_neg (by omega), Int.toNat_natCast, Stream.ofBytes, List.append_assoc,
      List.drop_left]
  exact renderPieces_segments hs hp hf hrest

/-- Literals that look like conversions, a text, and integers of each kind. -/
theorem render_record_mixed :
    (∀ segment ∈ [literal "100%d".toList, text "é".toList, literal "%".toList, signed 'i' (-2),
      unsigned 7, hexadecimal true 0xab], segment.Fits) ∧
      render (.ofBytes [9, 0xc3, 0xa9, 0, 0xfe, 0xff, 0xff, 0xff, 7, 0, 0, 0, 0xab, 0, 0, 0, 8])
        (some 1) "100%%d%s%%%i%u%X".toList none = .ok "100%dé%-27AB".toList := by
  have hf : ∀ segment ∈ [literal "100%d".toList, text "é".toList, literal "%".toList,
      signed 'i' (-2), unsigned 7, hexadecimal true 0xab], segment.Fits := by
    simp [Fits]
  exact ⟨hf, render_record hf [9] [8] (by decide)⟩

end Segment
end FileMagic
