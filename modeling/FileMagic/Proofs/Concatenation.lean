import FileMagic.Proofs.Rendering
import FileMagic.Proofs.Specifier

/-! # A template renders part by part

What a conversion gives does not depend on what stands before it in the template, but for the
position it reads from: it gives what it would give alone there (`eachAlone`), and the position is
behind the octets that the conversions before it have consumed (`Specifier.consumed`). So a template
renders to the characters that are copied and the outputs of its leftmost conversions, in their
order (`render_leftmost`). Lengths mean nothing: conversions that differ in them only are read
alike, and they leave the conversions of the template where they are. -/

namespace FileMagic.Template

variable {s : Stream} {p : Int}

namespace Specifier

/-- The octets that a conversion consumes at a position: a text with its zero octet, if there is
one, or those of an integer, as far as they are there. -/
def consumed (s : Stream) (p : Int) (c : Specifier) : Nat :=
  if c.letter = '%' then 0
  else if c.letter = 's' then
    ((s.rest p).takeWhile (· ≠ 0)).length + if 0 ∈ s.rest p then 1 else 0
  else min 4 (s.rest p).length

/-- The width and the precision are ASCII numbers that are not too big. -/
def Fits (c : Specifier) : Prop :=
  Conversion.NumberWithin Conversion.widthLimit c.width ∧
    ∀ digits ∈ c.precision, Conversion.NumberWithin (Conversion.precisionBound c.kind) digits

instance (c : Specifier) : Decidable c.Fits := inferInstanceAs (Decidable (_ ∧ _))

theorem kind_cases (c : Specifier) :
    (c.letter = '%' ∧ c.kind = .percent) ∨ (c.letter = 's' ∧ c.kind = .text) ∨
      (c.letter ≠ '%' ∧ c.letter ≠ 's' ∧ c.kind ≠ .percent ∧ c.kind ≠ .text) := by
  have hall : ∀ letter ∈ letters,
      (letter = '%' ∧ (ConversionKind.ofLetter? letter).getD .percent = .percent) ∨
      (letter = 's' ∧ (ConversionKind.ofLetter? letter).getD .percent = .text) ∨
      (letter ≠ '%' ∧ letter ≠ 's' ∧ (ConversionKind.ofLetter? letter).getD .percent ≠ .percent ∧
        (ConversionKind.ofLetter? letter).getD .percent ≠ .text) :=
    List.all_iff_forall_prop.mp (by decide)
  exact hall c.letter c.letter_mem

end Specifier

/-- Zeros at the start do not change a number. -/
theorem readNumber_zeros (digits : Text) :
    Conversion.readNumber (digits.dropWhile (· = '0')) = Conversion.readNumber digits := by
  induction digits with
  | nil => rfl
  | cons c rest ih =>
    by_cases hc : c = '0'
    · subst hc
      rw [List.dropWhile_cons_of_pos (by decide), ih]
      rfl
    · rw [List.dropWhile_cons_of_neg (by simpa using hc)]

theorem Specifier.Fits.formats {c : Specifier} (h : c.Fits) : c.conversion.Formats := by
  refine ⟨?_, h.2⟩
  rw [Conversion.NumberWithin, Specifier.conversion, readNumber_zeros]
  exact h.1

theorem textLength_eq (s : Stream) (p : Int) : Conversion.textLength s p =
    ((s.rest p).takeWhile (· ≠ 0)).length + if 0 ∈ s.rest p then 1 else 0 := by
  have hlen := Stream.length_takeWhile_rest_le s p 0
  rw [Conversion.textLength]
  by_cases hmem : 0 ∈ s.rest p
  · have hlt : ((s.rest p).takeWhile (· ≠ 0)).length ≠ (s.rest p).length := by
      intro heq
      have hself := (List.takeWhile_prefix (fun o : UInt8 => decide (o ≠ 0))).eq_of_length heq
      have hall := List.all_takeWhile (p := fun o : UInt8 => decide (o ≠ 0)) (l := s.rest p)
      rw [hself] at hall
      simpa using List.all_eq_true.mp hall 0 hmem
    rw [if_pos hmem]
    omega
  · have hwhole : (s.rest p).takeWhile (· ≠ 0) = s.rest p := by
      simpa using Stream.takeWhile_append_of_not_mem hmem []
    rw [if_neg hmem, hwhole]
    omega

/-- A conversion leaves the position behind what it consumes. -/
theorem next_conversion (s : Stream) (p : Int) (c : Specifier) :
    c.conversion.next s none (some p) = some (p + c.consumed s p) := by
  have hkind : c.conversion.kind = c.kind := rfl
  rw [Conversion.next, hkind, Specifier.consumed]
  rcases c.kind_cases with ⟨hletter, hk⟩ | ⟨hletter, hk⟩ | ⟨hpercent, htext, hkp, hkt⟩
  · rw [hk, if_pos hletter, Int.natCast_zero, Int.add_zero]
  · have hpercent : ¬ c.letter = '%' := by
      rw [hletter]
      decide
    rw [hk, if_neg hpercent, if_pos hletter, ← textLength_eq]
    rfl
  · rw [if_neg hpercent, if_neg htext]
    cases hk : c.kind with
    | percent => exact absurd hk hkp
    | text => exact absurd hk hkt
    | decimal signed => rfl
    | hexadecimal capital => rfl

theorem consumed_le (s : Stream) (p : Int) (c : Specifier) :
    c.consumed s p ≤ (s.rest p).length := by
  have hlen := textLength_eq s p
  rw [Conversion.textLength] at hlen
  rw [Specifier.consumed]
  split
  · exact Nat.zero_le _
  · split
    · omega
    · exact Nat.min_le_right ..

/-! ## Conversions by themselves -/

theorem pieces_text (c : Specifier) : pieces c.text = [.conversion c.conversion] := by
  have hleft : Leftmost [.conversion c] := trivial
  have hpieces := pieces_of_leftmost hleft
  rwa [textOf, List.flatMap_singleton] at hpieces

theorem render_text (s : Stream) (position : Option Int) (c : Specifier) (shown : Option Text) :
    render s position c.text shown =
      (renderConversion s shown position c.conversion).map (·.1) := by
  rw [render, pieces_text, renderPieces]
  cases renderConversion s shown position c.conversion with
  | error f => rfl
  | ok found => simp [renderPieces, Except.map]

/-- A per cent sign in a conversion stands for itself. -/
theorem render_percent {c : Specifier} (h : c.letter = '%') (s : Stream) (position : Option Int)
    (shown : Option Text) : render s position c.text shown = .ok ['%'] := by
  have hkind : c.conversion.kind = .percent := by
    rcases c.kind_cases with ⟨-, hk⟩ | ⟨hletter, -⟩ | ⟨hpercent, -⟩
    · exact hk
    · rw [h] at hletter
      cases hletter
    · exact absurd h hpercent
  rw [render_text, renderConversion, hkind]
  rfl

theorem length_rest_lt_four_iff : (s.rest p).length < 4 ↔ p < 0 ∨ s.content.length < p + 4 := by
  by_cases hneg : p < 0
  · rw [Stream.length_rest_of_neg hneg]
    exact iff_of_true (by decide) (.inl hneg)
  · rw [Stream.length_rest (Int.not_lt.mp hneg)]
    omega

/-- An integer that is not whole is left out, and what is left of it consumed. -/
theorem renderInteger_short (hs : s.InMemory) (hp : p < Stream.positionLimit)
    (hshort : (s.rest p).length < 4) (c : Conversion) :
    renderInteger s (some p) c = .ok ([], some (p + Conversion.integerLength s p)) := by
  obtain ⟨value, hread, hvalue⟩ := readInteger_eq hs hp (c.kind = .decimal true)
  have hnone : value = none := by
    rw [← Option.not_isSome_iff_eq_none, hvalue]
    exact Nat.not_le_of_lt hshort
  rw [renderInteger, hread, hnone]
  rfl

theorem render_short (hs : s.InMemory) (hp : p < Stream.positionLimit) {c : Specifier}
    (h : c.letter ≠ '%' ∧ c.letter ≠ 's') (hshort : (s.rest p).length < 4) :
    render s (some p) c.text none = .ok [] := by
  have hkind : c.conversion.kind = c.kind := rfl
  have hinteger := renderInteger_short hs hp hshort c.conversion
  have hconversion : renderConversion s none (some p) c.conversion =
      .ok ([], some (p + Conversion.integerLength s p)) := by
    rw [renderConversion, hkind]
    rcases c.kind_cases with ⟨hletter, -⟩ | ⟨hletter, -⟩ | ⟨-, -, hkp, hkt⟩
    · exact absurd hletter h.1
    · exact absurd hletter h.2
    · cases hk : c.kind with
      | percent => exact absurd hk hkp
      | text => exact absurd hk hkt
      | decimal signed => exact hinteger
      | hexadecimal capital => exact hinteger
  rw [render_text, hconversion]
  rfl

/-- A conversion that fits gives something wherever it reads. -/
theorem render_isOk (hs : s.InMemory) (hp : p < Stream.positionLimit) {c : Specifier}
    (h : c.letter ≠ '%' → c.Fits) : ∃ out, render s (some p) c.text none = .ok out := by
  by_cases hletter : c.letter = '%'
  · exact ⟨['%'], render_percent hletter s (some p) none⟩
  · have hbound : ∀ q ∈ some p, q < Stream.positionLimit := by
      intro q hq
      cases hq
      exact hp
    have hnot : ¬ Fails (renderConversion s none (some p) c.conversion) := by
      rw [renderConversion_fails_iff hs]
      exact not_failsAt hbound (h hletter).formats
    rw [render_text]
    cases hconversion : renderConversion s none (some p) c.conversion with
    | error f => exact absurd ⟨f, hconversion⟩ hnot
    | ok found => exact ⟨found.1, rfl⟩

/-! ## One part after the other -/

namespace Part

/-- What a part gives by itself. -/
def alone (s : Stream) (p : Int) : Part → Except ProbeFault Text
  | .char c => .ok [c]
  | .conversion c => render s (some p) c.text none

def consumed (s : Stream) (p : Int) : Part → Nat
  | .char _ => 0
  | .conversion c => c.consumed s p

/-- A per cent sign is not laid out. -/
def Fits : Part → Prop
  | .char _ => True
  | .conversion c => c.letter ≠ '%' → c.Fits

instance : (part : Part) → Decidable part.Fits
  | .char _ => inferInstanceAs (Decidable True)
  | .conversion c => inferInstanceAs (Decidable (c.letter ≠ '%' → c.Fits))

end Part

/-- What the parts give by themselves, each behind the octets of those before it. -/
def eachAlone (s : Stream) : Int → List Part → Except ProbeFault Text
  | _, [] => .ok []
  | p, part :: rest => do
    let out ← part.alone s p
    let more ← eachAlone s (p + part.consumed s p) rest
    pure (out ++ more)

theorem Part.advance_lt (hs : s.InMemory) (hp : p < Stream.positionLimit) (part : Part) :
    p + part.consumed s p < Stream.positionLimit := by
  cases part with
  | char c => exact hs.advance_lt hp (Nat.zero_le _)
  | conversion c => exact hs.advance_lt hp (consumed_le s p c)

theorem renderPieces_eq_eachAlone (hs : s.InMemory) (hp : p < Stream.positionLimit)
    (parts : List Part) :
    renderPieces s none (some p) (parts.map Part.piece) = eachAlone s p parts := by
  induction parts generalizing p with
  | nil => rfl
  | cons part rest ih =>
    have hrest := ih (part.advance_lt hs hp)
    rw [eachAlone, ← hrest]
    cases part with
    | char c =>
      rw [Part.consumed, Int.natCast_zero, Int.add_zero]
      rfl
    | conversion c =>
      rw [List.map_cons, Part.piece, renderPieces, Part.alone, render_text, Part.consumed]
      cases hconversion : renderConversion s none (some p) c.conversion with
      | error f => rfl
      | ok found =>
        obtain ⟨out, after⟩ := found
        obtain rfl := next_of_renderConversion hs hconversion
        simp only [next_conversion]
        rfl

theorem Splits.render_eq (hs : s.InMemory) (hp : p < Stream.positionLimit) {template : Text}
    {parts : List Part} (h : Splits template parts) :
    render s (some p) template none = eachAlone s p parts := by
  rw [render, h.pieces]
  exact renderPieces_eq_eachAlone hs hp parts

theorem eachAlone_isOk (hs : s.InMemory) (hp : p < Stream.positionLimit) {parts : List Part}
    (h : ∀ part ∈ parts, part.Fits) : ∃ out, eachAlone s p parts = .ok out := by
  induction parts generalizing p with
  | nil => exact ⟨[], rfl⟩
  | cons part rest ih =>
    obtain ⟨hfits, hrest⟩ := List.forall_mem_cons.mp h
    have hpart : ∃ out, part.alone s p = .ok out := by
      cases part with
      | char c => exact ⟨[c], rfl⟩
      | conversion c => exact render_isOk hs hp hfits
    obtain ⟨out, hout⟩ := hpart
    obtain ⟨more, hmore⟩ := ih (part.advance_lt hs hp) hrest
    exact ⟨out ++ more, by rw [eachAlone, hout, ok_bind, hmore]; rfl⟩

/-- What templates render to: the characters between their leftmost conversions, and of each
conversion what it gives by itself behind the octets of those before it. -/
theorem render_leftmost {content : Bytes} (hl : (content.length : Int) < Stream.positionLimit)
    (template : Text) :
    (∃ parts, Splits template parts) ∧
    (∀ {parts}, Splits template parts →
      (∀ {parts'}, Splits template parts' → parts'.map Part.text = parts.map Part.text) ∧
      (∀ {p}, p < Stream.positionLimit →
        render (.ofBytes content) (some p) template none = eachAlone (.ofBytes content) p parts ∧
        ((∀ part ∈ parts, part.Fits) →
          ∃ out, eachAlone (.ofBytes content) p parts = .ok out)) ∧
      ∀ {parts'}, List.Forall₂ Part.SameButLength parts parts' → ∀ s position shown,
        render s position (textOf parts') shown = render s position template shown) ∧
    ∀ c : Specifier,
      (c.letter = '%' → ∀ s position shown, render s position c.text shown = .ok ['%']) ∧
      (c.letter ≠ '%' ∧ c.letter ≠ 's' →
        ∀ {p : Int}, p < Stream.positionLimit → p < 0 ∨ content.length < p + 4 →
          render (.ofBytes content) (some p) c.text none = .ok []) := by
  have hs := Stream.inMemory_ofBytes hl
  refine ⟨exists_splits template, fun {parts} h => ⟨fun {parts'} h' => h'.unique h, ?_, ?_⟩,
    fun c => ⟨fun hletter s position shown => ?_, fun hletter {p} hp hshort => ?_⟩⟩
  · intro p hp
    exact ⟨h.render_eq hs hp, eachAlone_isOk hs hp⟩
  · intro parts' hsame s position shown
    rw [render, pieces_of_sameButLength h hsame]
    rfl
  · exact render_percent hletter s position shown
  · exact render_short hs hp hletter (length_rest_lt_four_iff.mpr hshort)

/-- A conversion without a precision. -/
def Specifier.plain (flags width length : Text) (letter : Char)
    (h : flags.all Conversion.isFlag = true ∧ width.all isDecimalDigit = true ∧
      length ∈ lengths ∧ letter ∈ letters) : Specifier :=
  ⟨flags, width, none, length, letter, List.all_eq_true.mp h.1, List.all_eq_true.mp h.2.1, nofun,
    h.2.2.1, h.2.2.2⟩

/-- Per cent signs with a width and a flag, a conversion that is broken off, a text whose length
means nothing, and integers. -/
def overlappingParts : List Part :=
  [.conversion (.plain [] ['5'] [] '%' (by decide)), .char 'd', .char ' ',
    .conversion (.plain ['-'] [] [] '%' (by decide)),
    .conversion (.plain [' '] [] [] 'd' (by decide)), .char '%', .char '5', .char '.', .char 'd',
    .conversion (.plain [] [] ['l'] 's' (by decide)),
    .conversion (.plain [] [] ['l', 'l'] 'x' (by decide)),
    .conversion (.plain [] [] ['h', 'h'] 'd' (by decide))]

theorem render_leftmost_overlapping :
    let content : Bytes := [9, 2, 0, 0, 0, 0x61, 0x62, 0, 0xff, 0, 0, 0, 7, 7]
    (content.length : Int) < Stream.positionLimit ∧
      Splits "%5%d %-%% d%5.d%ls%llx%hhd".toList overlappingParts ∧
      (∀ part ∈ overlappingParts, part.Fits) ∧
      eachAlone (.ofBytes content) 1 overlappingParts = .ok "%d % 2%5.dabff".toList ∧
      render (.ofBytes content) (some 1) "%5%d %-%% d%5.d%ls%llx%hhd".toList none =
        .ok "%d % 2%5.dabff".toList := by
  intro content
  have hl : (content.length : Int) < Stream.positionLimit := by decide
  have hsplits : Splits "%5%d %-%% d%5.d%ls%llx%hhd".toList overlappingParts :=
    ⟨by decide, by decide +kernel⟩
  have hfits : ∀ part ∈ overlappingParts, part.Fits := by decide +kernel
  have heach : eachAlone (.ofBytes content) 1 overlappingParts =
      .ok "%d % 2%5.dabff".toList := by
    decide +kernel
  have hrender := (((render_leftmost hl _).2.1 hsplits).2.1 (p := 1) (by decide)).1
  exact ⟨hl, hsplits, hfits, heach, hrender.trans heach⟩

end FileMagic.Template
