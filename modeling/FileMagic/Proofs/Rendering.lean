import FileMagic.Message.Render
import FileMagic.Proofs.Reading

/-! # When a message cannot be rendered

A conversion fails where it would read beyond the bound of positions, or where it has a value
whose layout cannot be made: its width or its precision is too big or has digits that are not
ASCII. Conversions go on where the one before stopped, so what fails is found by going over
the pieces with the position that each one starts from (`Template.Faults`). -/

namespace FileMagic

namespace Conversion

/-- Digits that are a number up to a bound. -/
def NumberWithin (limit : Nat) (digits : Text) : Prop :=
  (readNumber digits).2 = [] ∧ (readNumber digits).1 ≤ limit

instance (limit : Nat) (digits : Text) : Decidable (NumberWithin limit digits) :=
  inferInstanceAs (Decidable (_ ∧ _))

/-- The greatest precision of a text or of an integer. -/
def precisionBound : ConversionKind → Nat
  | .text => precisionLimit
  | _ => digitsLimit

/-- A conversion whose layout can be made. -/
def Formats (c : Conversion) : Prop :=
  NumberWithin widthLimit c.width ∧
    ∀ digits ∈ c.precision, NumberWithin (precisionBound c.kind) digits

instance (c : Conversion) : Decidable c.Formats := inferInstanceAs (Decidable (_ ∧ _))

/-- A width and a precision that can be had, whatever is laid out. -/
def HasLayout (c : Conversion) : Prop :=
  NumberWithin widthLimit c.width ∧ ∀ digits ∈ c.precision, NumberWithin precisionLimit digits

/-- The layout of a conversion that has one is as precise as the conversion says. -/
theorem layout_cases (c : Conversion) :
    (c.HasLayout ∧ ∃ l, c.layout = .ok l ∧
      l.precision = c.precision.map fun digits => (readNumber digits).1) ∨
    (¬ c.HasLayout ∧ Fails c.layout) := by
  rcases hw : readNumber c.width with ⟨width, foreign⟩
  unfold HasLayout layout NumberWithin
  simp only [hw]
  by_cases hwide : widthLimit < width
  · simp [hwide, Nat.not_le_of_lt hwide]
  · cases foreign with
    | cons d rest => simp [hwide]
    | nil =>
      cases hp : c.precision with
      | none => simp [hwide, Nat.le_of_not_lt hwide]
      | some digits =>
        rcases hd : readNumber digits with ⟨precision, foreign⟩
        by_cases hlong : precisionLimit < precision
        · simp [hwide, hd, hlong, Nat.not_le_of_lt hlong]
        · cases foreign with
          | cons d rest => simp [hwide, hd, hlong]
          | nil => simp [hwide, hd, hlong, Nat.le_of_not_lt hwide, Nat.le_of_not_lt hlong]

theorem layout_fails_iff (c : Conversion) : Fails c.layout ↔ ¬ c.HasLayout := by
  rcases layout_cases c with ⟨hhas, l, hl, -⟩ | ⟨hnot, hfails⟩
  · rw [hl]
    exact iff_of_false (not_fails_ok l) (not_not_intro hhas)
  · exact iff_of_true hfails hnot

theorem precision_of_layout {c : Conversion} {l : Layout} (h : c.layout = .ok l) :
    l.precision = c.precision.map fun digits => (readNumber digits).1 := by
  rcases layout_cases c with ⟨-, l', hl, hprecision⟩ | ⟨-, hfails⟩
  · rw [h, Except.ok.injEq] at hl
    rw [hl, hprecision]
  · rw [h] at hfails
    exact absurd hfails (not_fails_ok l)

theorem formatText_fails_iff {c : Conversion} (hk : c.kind = .text) (t : Text) :
    Fails (c.formatText t) ↔ ¬ c.Formats := by
  rw [formatText, fails_map_iff, layout_fails_iff, Formats, hk]
  rfl

theorem digitsLimit_le : digitsLimit ≤ precisionLimit := by decide

theorem formatInteger_fails_iff {c : Conversion} (hk : c.kind ≠ .text) (n : Int) :
    Fails (c.formatInteger n) ↔ ¬ c.Formats := by
  have hbound : precisionBound c.kind = digitsLimit := by
    cases hc : c.kind <;> first | rfl | exact absurd hc hk
  have hlayout := layout_fails_iff c
  rw [formatInteger, Formats, hbound]
  cases hl : c.layout with
  | error e =>
    rw [hl] at hlayout
    have hbad := hlayout.mp (fails_error e)
    simp only [error_bind, fails_error, true_iff]
    intro h
    obtain ⟨hw, hp⟩ := h
    refine hbad ⟨hw, fun digits hd => ?_⟩
    exact ⟨(hp digits hd).1, Nat.le_trans (hp digits hd).2 digitsLimit_le⟩
  | ok l =>
    rw [hl] at hlayout
    obtain ⟨hw, hp⟩ := Classical.not_not.mp (mt hlayout.mpr (not_fails_ok l))
    have hprecision := precision_of_layout hl
    rw [ok_bind]
    cases hc : c.precision with
    | none =>
      rw [hc, Option.map_none] at hprecision
      simp [hprecision, hw]
    | some digits =>
      rw [hc, Option.map_some] at hprecision
      have hn := hp digits hc
      by_cases hlong : digitsLimit < (readNumber digits).1
      · simp [hprecision, hlong, NumberWithin, Nat.not_le_of_lt hlong]
      · simp [hprecision, hlong, NumberWithin, hn.1, hw.1, hw.2, Nat.le_of_not_lt hlong]

/-- A conversion of a text that cannot be rendered. -/
def TextFailsAt (shown : Option Text) (position : Option Int) (c : Conversion) : Prop :=
  ¬ c.Formats ∨ shown = none ∧ ∃ p, position = some p ∧ Stream.positionLimit ≤ p

/-- A conversion of an integer that cannot be rendered: it needs no layout when there is no
whole integer to read. -/
def IntegerFailsAt (s : Stream) (position : Option Int) (c : Conversion) : Prop :=
  ∃ p, position = some p ∧ (Stream.positionLimit ≤ p ∨
    Template.integerWidth.octets ≤ (s.rest p).length ∧ ¬ c.Formats)

def FailsAt (s : Stream) (shown : Option Text) (position : Option Int) (c : Conversion) : Prop :=
  match c.kind with
  | .percent => False
  | .text => c.TextFailsAt shown position
  | _ => c.IntegerFailsAt s position

/-- The octets of the text at a position, with the zero octet that ends it. -/
def textLength (s : Stream) (p : Int) : Nat :=
  min ((s.rest p).takeWhile (· ≠ 0)).length.succ (s.rest p).length

/-- The octets of the integer at a position, as far as there are any. -/
def integerLength (s : Stream) (p : Int) : Nat :=
  min Template.integerWidth.octets (s.rest p).length

/-- The position after a conversion. -/
def next (s : Stream) (shown : Option Text) (position : Option Int) (c : Conversion) :
    Option Int :=
  match c.kind with
  | .percent => position
  | .text => if shown.isSome then position else position.map fun p => p + textLength s p
  | _ => position.map fun p => p + integerLength s p

end Conversion

@[simp] theorem ProbeFault.ofRead_ok {α : Type} (a : α) :
    ofRead (.ok a : Except ReadFault α) = .ok a := rfl

@[simp] theorem ProbeFault.ofRead_error {α : Type} (e : ReadFault) :
    ofRead (.error e : Except ReadFault α) = .error (.read e) := rfl

namespace Template

variable {s : Stream}

theorem readText_eq (hs : s.InMemory) {p : Int} (hp : p < Stream.positionLimit) :
    readText s p = .ok (Utf8.decode ((s.rest p).takeWhile (· ≠ 0)),
      p + Conversion.textLength s p) := by
  have hlen := Stream.length_takeWhile_rest_le s p 0
  rw [readText, hs.readable.readUntil_eq 0 (hs.lt_bound hp), ok_bind]
  simp only [hs.readable.readAt_terminator 0 (hs.lt_bound hp), ok_bind, Conversion.textLength]
  by_cases hend : ((s.rest p).takeWhile (· ≠ 0)).length < (s.rest p).length
  · have hmin : min ((s.rest p).takeWhile (· ≠ 0)).length.succ (s.rest p).length =
        ((s.rest p).takeWhile (· ≠ 0)).length + 1 := by omega
    have hmore : (((s.rest p).drop ((s.rest p).takeWhile (· ≠ 0)).length).take 1).isEmpty =
        false := by
      rw [Bool.eq_false_iff, Ne, List.isEmpty_iff, List.take_eq_nil_iff, List.drop_eq_nil_iff]
      omega
    rw [hmin, hmore, Int.natCast_add, ← Int.add_assoc]
    rfl
  · have hmin : min ((s.rest p).takeWhile (· ≠ 0)).length.succ (s.rest p).length =
        ((s.rest p).takeWhile (· ≠ 0)).length := by omega
    have hnone : (s.rest p).drop ((s.rest p).takeWhile (· ≠ 0)).length = [] :=
      List.drop_eq_nil_of_le (Nat.le_of_not_lt hend)
    rw [hmin, hnone]
    rfl

theorem readText_of_limit_le (hs : s.InMemory) {p : Int} (hp : Stream.positionLimit ≤ p) :
    readText s p = .error .overflow := by
  rw [readText, hs.readUntil_of_limit_le _ hp, error_bind]

theorem readInteger_eq (hs : s.InMemory) {p : Int} (hp : p < Stream.positionLimit)
    (signed : Bool) : ∃ value,
      readInteger s p signed = .ok (value, p + Conversion.integerLength s p) ∧
        (value.isSome = true ↔ integerWidth.octets ≤ (s.rest p).length) := by
  have hb := Stream.not_beyond hp (show (integerWidth.octets : Int) < _ by decide)
  rw [readInteger, hs.readAt_of_not_beyond hb, ok_bind]
  simp only [Int.toNat_natCast, List.length_take, Conversion.integerLength]
  by_cases hlen : integerWidth.octets ≤ (s.rest p).length
  · rw [if_neg (by omega)]
    exact ⟨_, rfl, by simp [hlen]⟩
  · rw [if_pos (by omega)]
    exact ⟨_, rfl, by simp [hlen]⟩

theorem readInteger_of_limit_le (hs : s.InMemory) {p : Int} (hp : Stream.positionLimit ≤ p)
    (signed : Bool) : readInteger s p signed = .error .overflow := by
  have hb : Stream.Beyond p integerWidth.octets :=
    ⟨Int.le_trans (by decide) hp, by decide, .inl hp⟩
  rw [readInteger, hs.readAt_of_beyond hb, error_bind]

theorem renderText_fails_iff (hs : s.InMemory) (shown : Option Text) (position : Option Int)
    {c : Conversion} (hk : c.kind = .text) :
    Fails (renderText s shown position c) ↔ c.TextFailsAt shown position := by
  have htext := fun t => Conversion.formatText_fails_iff hk t
  unfold renderText Conversion.TextFailsAt
  cases shown with
  | some t => simp [fails_bind_iff, htext]
  | none =>
    cases position with
    | none => simp [fails_bind_iff, htext]
    | some p =>
      by_cases hp : p < Stream.positionLimit
      · simp [readText_eq hs hp, fails_bind_iff, htext, Int.not_le.mpr hp]
      · simp [readText_of_limit_le hs (Int.not_lt.mp hp), Int.not_lt.mp hp]

theorem renderInteger_fails_iff (hs : s.InMemory) (position : Option Int) {c : Conversion}
    (hk : c.kind ≠ .text) :
    Fails (renderInteger s position c) ↔ c.IntegerFailsAt s position := by
  have hinteger := fun n => Conversion.formatInteger_fails_iff hk n
  unfold renderInteger Conversion.IntegerFailsAt
  cases position with
  | none => simp
  | some p =>
    by_cases hp : p < Stream.positionLimit
    · obtain ⟨value, hread, hvalue⟩ := readInteger_eq hs hp (c.kind = .decimal true)
      cases value with
      | none =>
        have hshort : ¬ integerWidth.octets ≤ (s.rest p).length := by simp [← hvalue]
        simp [hread, Int.not_le.mpr hp, hshort]
      | some n =>
        have hwhole : integerWidth.octets ≤ (s.rest p).length := hvalue.mp rfl
        simp [hread, fails_bind_iff, hinteger, Int.not_le.mpr hp, hwhole]
    · simp [readInteger_of_limit_le hs (Int.not_lt.mp hp),
        Int.not_lt.mp hp]

theorem renderConversion_fails_iff (hs : s.InMemory) (shown : Option Text)
    (position : Option Int) (c : Conversion) :
    Fails (renderConversion s shown position c) ↔ c.FailsAt s shown position := by
  unfold renderConversion Conversion.FailsAt
  cases hk : c.kind with
  | percent => simp
  | text => exact renderText_fails_iff hs shown position hk
  | decimal signed => exact renderInteger_fails_iff hs position (by simp [hk])
  | hexadecimal capital => exact renderInteger_fails_iff hs position (by simp [hk])

theorem next_of_renderText (hs : s.InMemory) {shown : Option Text} {position after : Option Int}
    {c : Conversion} {out : Text} (h : renderText s shown position c = .ok (out, after)) :
    after = if shown.isSome then position else position.map fun p =>
      p + Conversion.textLength s p := by
  unfold renderText at h
  cases shown with
  | some t =>
    obtain ⟨_, -, he⟩ := bind_eq_ok_iff.mp h
    cases he
    rfl
  | none =>
    cases position with
    | none =>
      obtain ⟨_, -, he⟩ := bind_eq_ok_iff.mp h
      cases he
      rfl
    | some p =>
      by_cases hp : p < Stream.positionLimit
      · simp only [readText_eq hs hp, ProbeFault.ofRead_ok, ok_bind] at h
        obtain ⟨_, -, he⟩ := bind_eq_ok_iff.mp h
        cases he
        rfl
      · simp [readText_of_limit_le hs (Int.not_lt.mp hp)] at h

theorem next_of_renderInteger (hs : s.InMemory) {position after : Option Int} {c : Conversion}
    {out : Text} (h : renderInteger s position c = .ok (out, after)) :
    after = position.map fun p => p + Conversion.integerLength s p := by
  unfold renderInteger at h
  cases position with
  | none =>
    cases h
    rfl
  | some p =>
    by_cases hp : p < Stream.positionLimit
    · obtain ⟨value, hread, -⟩ := readInteger_eq hs hp (c.kind = .decimal true)
      simp only [hread, ProbeFault.ofRead_ok, ok_bind] at h
      cases value with
      | none =>
        cases h
        rfl
      | some n =>
        obtain ⟨_, -, he⟩ := bind_eq_ok_iff.mp h
        cases he
        rfl
    · simp [readInteger_of_limit_le hs (Int.not_lt.mp hp)] at h

theorem next_of_renderConversion (hs : s.InMemory) {shown : Option Text}
    {position after : Option Int} {c : Conversion} {out : Text}
    (h : renderConversion s shown position c = .ok (out, after)) :
    after = c.next s shown position := by
  unfold renderConversion at h
  unfold Conversion.next
  cases hk : c.kind with
  | percent =>
    rw [hk] at h
    cases h
    rfl
  | text =>
    rw [hk] at h
    exact next_of_renderText hs h
  | decimal signed =>
    rw [hk] at h
    exact next_of_renderInteger hs h
  | hexadecimal capital =>
    rw [hk] at h
    exact next_of_renderInteger hs h

/-- One of the conversions, each at the position it starts from, cannot be rendered. -/
def Faults (s : Stream) (shown : Option Text) : Option Int → List Piece → Prop
  | _, [] => False
  | position, .char _ :: rest => Faults s shown position rest
  | position, .conversion c :: rest =>
    c.FailsAt s shown position ∨ Faults s shown (c.next s shown position) rest

theorem renderPieces_fails_iff (hs : s.InMemory) (shown : Option Text) (position : Option Int)
    (pieces : List Piece) :
    Fails (renderPieces s shown position pieces) ↔ Faults s shown position pieces := by
  induction pieces generalizing position with
  | nil => simp [renderPieces, Faults]
  | cons piece rest ih =>
    cases piece with
    | char c => simp [renderPieces, Faults, fails_bind_iff, ih]
    | conversion c =>
      have hc := renderConversion_fails_iff hs shown position c
      rw [renderPieces, fails_bind_iff, hc, Faults]
      cases hr : renderConversion s shown position c with
      | error e =>
        rw [hr] at hc
        have hfails := hc.mp (fails_error e)
        simp [hfails]
      | ok result =>
        obtain ⟨out, after⟩ := result
        obtain rfl := next_of_renderConversion hs hr
        simp [fails_bind_iff, ih]

theorem render_fails_iff (hs : s.InMemory) (position : Option Int) (template : Text)
    (shown : Option Text) : Fails (render s position template shown) ↔
      Faults s shown position (pieces template) :=
  renderPieces_fails_iff hs shown position (pieces template)

/-- A template without a per cent sign is text. -/
theorem pieces_of_not_mem {t : Text} (h : '%' ∉ t) : pieces t = t.map .char := by
  have hafter : piecesAfter 0 t = t.map .char := by
    induction t with
    | nil => rfl
    | cons c rest ih =>
      rw [List.mem_cons, not_or] at h
      have hc : c ≠ '%' := fun e => h.1 e.symm
      rw [piecesAfter, if_neg hc, ih h.2, List.map_cons]
  exact hafter

theorem renderPieces_chars (s : Stream) (shown : Option Text) (position : Option Int) (t : Text) :
    renderPieces s shown position (t.map .char) = .ok t := by
  induction t with
  | nil => rfl
  | cons c rest ih =>
    rw [List.map_cons, renderPieces, ih]
    rfl

theorem render_of_not_mem {t : Text} (h : '%' ∉ t) (s : Stream) (position : Option Int)
    (shown : Option Text) : render s position t shown = .ok t := by
  rw [render, pieces_of_not_mem h, renderPieces_chars]

/-- Conversions do not lead beyond the bound of positions. -/
theorem next_lt (hs : s.Readable) (shown : Option Text) (c : Conversion) {position : Option Int}
    (h : ∀ p ∈ position, p < Stream.bound s.backing) :
    ∀ p ∈ c.next s shown position, p < Stream.bound s.backing := by
  have hadvance : ∀ length : Int → Nat, (∀ p, length p ≤ (s.rest p).length) →
      ∀ p ∈ position.map fun p => p + length p, p < Stream.bound s.backing := by
    intro length hlength q hq
    obtain ⟨p, hp, rfl⟩ := Option.map_eq_some_iff.mp hq
    exact hs.advance_lt (h p hp) (hlength p)
  unfold Conversion.next
  cases c.kind with
  | percent => exact h
  | text =>
    cases shown with
    | some t => exact h
    | none => exact hadvance (Conversion.textLength s) fun p => Nat.min_le_right _ _
  | decimal signed => exact hadvance (Conversion.integerLength s) fun p => Nat.min_le_right _ _
  | hexadecimal capital =>
    exact hadvance (Conversion.integerLength s) fun p => Nat.min_le_right _ _

theorem not_failsAt {shown : Option Text} {position : Option Int} {c : Conversion}
    (hp : ∀ p ∈ position, p < Stream.positionLimit) (hc : c.Formats) :
    ¬ c.FailsAt s shown position := by
  have htext : ¬ c.TextFailsAt shown position := by
    intro h
    rcases h with h | ⟨-, p, hpos, hle⟩
    · exact h hc
    · exact Int.not_le.mpr (hp p hpos) hle
  have hinteger : ¬ c.IntegerFailsAt s position := by
    intro hfails
    rcases hfails with ⟨p, hpos, hle | ⟨-, h⟩⟩
    · exact Int.not_le.mpr (hp p hpos) hle
    · exact h hc
  unfold Conversion.FailsAt
  cases c.kind with
  | percent => exact id
  | text => exact htext
  | decimal signed => exact hinteger
  | hexadecimal capital => exact hinteger

/-- A template whose conversions all have a layout renders wherever it starts within the
bound of positions, and anywhere if it has none. -/
theorem not_faults (hs : s.InMemory) (shown : Option Text) {position : Option Int}
    {pieces : List Piece}
    (hp : ∀ c, .conversion c ∈ pieces → ∀ p ∈ position, p < Stream.positionLimit)
    (hc : ∀ c, .conversion c ∈ pieces → c.Formats) : ¬ Faults s shown position pieces := by
  induction pieces generalizing position with
  | nil => exact id
  | cons piece rest ih =>
    have hrest : ∀ c, .conversion c ∈ rest → c.Formats := fun c h =>
      hc c (List.mem_cons_of_mem _ h)
    cases piece with
    | char c => exact ih (fun c h => hp c (List.mem_cons_of_mem _ h)) hrest
    | conversion c =>
      have hbound := hp c List.mem_cons_self
      have hnext := next_lt hs.readable shown c (hs.bound_eq.symm ▸ hbound)
      rw [hs.bound_eq] at hnext
      intro hfaults
      rcases hfaults with h | h
      · exact not_failsAt hbound (hc c List.mem_cons_self) h
      · exact ih (fun _ _ => hnext) hrest h

end Template
end FileMagic
