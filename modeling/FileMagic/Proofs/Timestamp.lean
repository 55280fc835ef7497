import FileMagic.Proofs.Agreement
import FileMagic.Proofs.Calendar
import FileMagic.Proofs.Comparison

/-! # Instants as text

An instant is so many seconds from the start of 1970, and at every instant there is one moment of
the calendar: a date, a day of the week and a time of the day (`Moment.existsUnique_isAt`). Within
the years that have dates it is this moment that is written, and other instants are written as
numbers, if their numerals are not too long, so that no two instants are written alike
(`Instant.text_injective`). The three kinds of dates count in their own ways, and what they count
can always be written (`DateScale.text_isOk`); in any order of octets it is the same instant and
has the same text (`DateTest.evaluate_of_accepts`). -/

namespace FileMagic

/-- A date with its day of the week, counted from Sunday, and a time of the day. -/
structure Moment where
  date : CivilDate
  weekday : Nat
  hour : Nat
  minute : Nat
  second : Nat

namespace Moment

/-- The moment is so many seconds from the start of 1970, which was on a Thursday. -/
structure IsAt (m : Moment) (seconds : Int) : Prop where
  date : m.date.Valid
  weekday : (m.weekday : Int) = (m.date.toDays + 4) % 7
  hour : m.hour < 24
  minute : m.minute < 60
  second : m.second < 60
  sum : m.date.toDays * 86400 + m.hour * 3600 + m.minute * 60 + m.second = seconds

def twoDigits (n : Nat) : Text := [(n / 10).digitChar, (n % 10).digitChar]

/-- The day of a month in two columns. -/
def dayColumns (day : Nat) : Text := if day < 10 then [' ', day.digitChar] else twoDigits day

def shown (m : Moment) : Text :=
  weekdayNames.getD m.weekday [] ++ [' '] ++ monthNames.getD (m.date.month - 1) [] ++ [' '] ++
    dayColumns m.date.day ++ [' '] ++ twoDigits m.hour ++ [':'] ++ twoDigits m.minute ++ [':'] ++
    twoDigits m.second ++ " UTC ".toList ++ Text.ofInt m.date.year

variable {m m' : Moment} {seconds seconds' : Int}

/-! ## One moment for an instant -/

theorem existsUnique_isAt (seconds : Int) : ∃! m : Moment, m.IsAt seconds := by
  obtain ⟨date, ⟨hvalid, hdays⟩, hunique⟩ := CivilDate.existsUnique_toDays (seconds / 86400)
  refine ⟨⟨date, ((date.toDays + 4) % 7).toNat, (seconds % 86400 / 3600).toNat,
    (seconds % 86400 / 60 % 60).toNat, (seconds % 60).toNat⟩, ?_, ?_⟩
  · refine ⟨hvalid, ?_, ?_, ?_, ?_, ?_⟩
    all_goals
      simp only
      omega
  · rintro ⟨date', weekday, hour, minute, second⟩ ⟨hvalid', hweekday, hhour, hminute, hsecond, hsum⟩
    simp only at hvalid' hweekday hhour hminute hsecond hsum
    obtain rfl := hunique date' ⟨hvalid', by omega⟩
    simp only [mk.injEq, true_and]
    omega

/-! ## The text of a moment -/

theorem IsAt.columns (h : m.IsAt seconds) : m.weekday < 7 ∧ m.date.month - 1 < 12 ∧
    m.date.day < 100 ∧ m.hour < 100 ∧ m.minute < 100 ∧ m.second < 100 := by
  have hle := CivilDate.daysInMonth_le (CivilDate.isLeap m.date.year) h.date.month.2
  have hmonth := h.date.month
  have hday := h.date.day.2
  have hweekday := h.weekday
  have hhour := h.hour
  have hminute := h.minute
  have hsecond := h.second
  omega

theorem ofNat_of_lt_ten {n : Nat} (h : n < 10) : Text.ofNat n = [n.digitChar] :=
  Nat.toDigits_of_lt_base h

theorem ofNat_of_lt_hundred {n : Nat} (hlow : 10 ≤ n) (hhigh : n < 100) :
    Text.ofNat n = twoDigits n := by
  rw [Text.ofNat, Nat.toDigits_eq_if (by omega), if_neg (by omega),
    Nat.toDigits_of_lt_base (by omega)]
  rfl

theorem padStart_zero {n : Nat} (h : n < 100) :
    Text.padStart 2 '0' (Text.ofNat n) = twoDigits n := by
  by_cases hlt : n < 10
  · rw [ofNat_of_lt_ten hlt, twoDigits, Nat.div_eq_of_lt hlt, Nat.mod_eq_of_lt hlt]
    rfl
  · rw [ofNat_of_lt_hundred (by omega) h, Text.padStart_of_le (Nat.le_refl 2)]

theorem padStart_blank {n : Nat} (h : n < 100) :
    Text.padStart 2 ' ' (Text.ofNat n) = dayColumns n := by
  unfold dayColumns
  split
  · next hlt =>
    rw [ofNat_of_lt_ten hlt]
    rfl
  · next hge => rw [ofNat_of_lt_hundred (by omega) h, Text.padStart_of_le (Nat.le_refl 2)]

end Moment

namespace Instant

variable {seconds seconds' : Int}

theorem twoDigits_eq {n : Int} {m : Nat} (h : n = m) (hm : m < 100) :
    twoDigits n = Moment.twoDigits m := by
  rw [twoDigits, h, Int.toNat_natCast, Moment.padStart_zero hm]

theorem text_of_isAt {m : Moment} (h : m.IsAt seconds) (hfirst : first ≤ seconds)
    (hlast : seconds ≤ last) : text seconds false = .ok m.shown := by
  obtain ⟨-, -, hday, hhour', hminute', hsecond'⟩ := h.columns
  obtain ⟨hvalid, hweekday, hhour, hminute, hsecond, hsum⟩ := h
  have hdays : seconds / 86400 = m.date.toDays := by omega
  have hdate : CivilDate.ofDays m.date.toDays = m.date := by
    obtain ⟨hvalid', hdays'⟩ := CivilDate.ofDays_spec m.date.toDays
    exact CivilDate.toDays_injective hvalid' hvalid hdays'
  have hweekday' : weekday m.date.toDays = m.weekday := by
    unfold weekday
    omega
  have hhours : twoDigits (seconds % 86400 / 3600) = Moment.twoDigits m.hour :=
    twoDigits_eq (by omega) hhour'
  have hminutes : twoDigits (seconds % 86400 / 60 % 60) = Moment.twoDigits m.minute :=
    twoDigits_eq (by omega) hminute'
  have hseconds : twoDigits (seconds % 86400 % 60) = Moment.twoDigits m.second :=
    twoDigits_eq (by omega) hsecond'
  have hnot : ¬ (seconds < first ∨ last < seconds) := by omega
  simp only [text, Bool.false_eq_true, if_false, if_neg hnot, secondsPerDay, hdays, hdate,
    hweekday', Moment.padStart_blank hday, hhours, hminutes, hseconds, Moment.shown]

theorem text_of_beyond (h : seconds < first ∨ last < seconds) :
    text seconds false = Numeral.write seconds := by
  simp only [text, Bool.false_eq_true, if_false, if_pos h]

/-- Whatever is not too long as a number can be written. -/
theorem text_isOk (h : seconds.natAbs < 10 ^ Numeral.decimalLimit) (isLocal : Bool) :
    ∃ t, text seconds isLocal = .ok t := by
  by_cases hbeyond : seconds < (if isLocal then first + secondsPerDay else first) ∨ last < seconds
  · exact ⟨_, (if_pos hbeyond).trans (Numeral.write_of_lt h)⟩
  · exact ⟨_, if_neg hbeyond⟩

/-- In local time there is a difference on the first day only. -/
theorem text_isLocal (h : first + secondsPerDay ≤ seconds) (isLocal : Bool) :
    text seconds isLocal = text seconds false := by
  cases isLocal with
  | false => rfl
  | true =>
    have hbeyond : (seconds < first + secondsPerDay ∨ last < seconds) ↔
        (seconds < first ∨ last < seconds) := by
      unfold secondsPerDay at h ⊢
      omega
    simp only [text, if_true, Bool.false_eq_true, if_false, hbeyond]

end Instant

namespace Moment

/-! ## No two instants are written alike -/

theorem digitChar_injective {m n : Nat} (hm : m < 10) (hn : n < 10)
    (h : m.digitChar = n.digitChar) : m = n := by
  have hall : ∀ m < 10, ∀ n < 10, m.digitChar = n.digitChar → m = n := by decide
  exact hall m hm n hn h

theorem twoDigits_injective {m n : Nat} (hm : m < 100) (hn : n < 100)
    (h : twoDigits m = twoDigits n) : m = n := by
  simp only [twoDigits, List.cons.injEq, and_true] at h
  have htens := digitChar_injective (by omega) (by omega) h.1
  have hones := digitChar_injective (Nat.mod_lt m (by omega)) (Nat.mod_lt n (by omega)) h.2
  omega

theorem digitChar_ne_blank {n : Nat} (h : n < 10) : n.digitChar ≠ ' ' := by
  have hall : ∀ n < 10, n.digitChar ≠ ' ' := by decide
  exact hall n h

theorem dayColumns_injective {m n : Nat} (hm : m < 100) (hn : n < 100)
    (h : dayColumns m = dayColumns n) : m = n := by
  unfold dayColumns at h
  split at h
  · next hm' =>
    split at h
    · next hn' => exact digitChar_injective hm' hn' (by simpa using h)
    · exact absurd (List.cons.inj h).1.symm (digitChar_ne_blank (by omega))
  · split at h
    · exact absurd (List.cons.inj h).1 (digitChar_ne_blank (by omega))
    · exact twoDigits_injective hm hn h

theorem length_dayColumns (n : Nat) : (dayColumns n).length = 2 := by
  unfold dayColumns
  split <;> rfl

theorem length_weekdayName {n : Nat} (h : n < 7) : (weekdayNames.getD n []).length = 3 := by
  have hall : ∀ n < 7, (weekdayNames.getD n []).length = 3 := by decide
  exact hall n h

theorem length_monthName {n : Nat} (h : n < 12) : (monthNames.getD n []).length = 3 := by
  have hall : ∀ n < 12, (monthNames.getD n []).length = 3 := by decide
  exact hall n h

theorem monthName_injective {m n : Nat} (hm : m < 12) (hn : n < 12)
    (h : monthNames.getD m [] = monthNames.getD n []) : m = n := by
  have hall : ∀ m < 12, ∀ n < 12, monthNames.getD m [] = monthNames.getD n [] → m = n := by decide
  exact hall m hm n hn h

variable {m m' : Moment} {seconds seconds' : Int}

/-- All columns but the year have a width of their own. -/
theorem shown_injective (h : m.IsAt seconds) (h' : m'.IsAt seconds') (heq : m.shown = m'.shown) :
    seconds = seconds' := by
  obtain ⟨hweekday, hmonth, hday, hhour, hminute, hsecond⟩ := h.columns
  obtain ⟨hweekday', hmonth', hday', hhour', hminute', hsecond'⟩ := h'.columns
  simp only [shown, List.append_assoc] at heq
  obtain ⟨-, heq⟩ := List.append_inj heq
    ((length_weekdayName hweekday).trans (length_weekdayName hweekday').symm)
  obtain ⟨hmonths, heq⟩ := List.append_inj (List.append_cancel_left heq)
    ((length_monthName hmonth).trans (length_monthName hmonth').symm)
  obtain ⟨hdays, heq⟩ := List.append_inj (List.append_cancel_left heq)
    ((length_dayColumns _).trans (length_dayColumns _).symm)
  obtain ⟨hhours, heq⟩ := List.append_inj (List.append_cancel_left heq) rfl
  obtain ⟨hminutes, heq⟩ := List.append_inj (List.append_cancel_left heq) rfl
  obtain ⟨hseconds, heq⟩ := List.append_inj (List.append_cancel_left heq) rfl
  have hyear := Text.ofInt_injective (List.append_cancel_left heq)
  have hmonth : m.date.month = m'.date.month := by
    have hindex := monthName_injective hmonth hmonth' hmonths
    have hlow := h.date.month.1
    have hlow' := h'.date.month.1
    omega
  have hdate : m.date.toDays = m'.date.toDays := by
    rw [CivilDate.toDays, CivilDate.toDays, hyear, hmonth, dayColumns_injective hday hday' hdays]
  rw [← h.sum, ← h'.sum, hdate, twoDigits_injective hhour hhour' hhours,
    twoDigits_injective hminute hminute' hminutes, twoDigits_injective hsecond hsecond' hseconds]

/-- The years that have dates have four digits at most. -/
theorem IsAt.year_iff (h : m.IsAt seconds) : Instant.first ≤ seconds ∧ seconds ≤ Instant.last ↔
    1 ≤ m.date.year ∧ m.date.year ≤ 9999 := by
  obtain ⟨hvalid, -, hhour, hminute, hsecond, hsum⟩ := h
  have hfirst : Instant.first = CivilDate.daysBeforeYear 1 * 86400 := by decide
  have hlast : Instant.last + 1 = CivilDate.daysBeforeYear 10000 * 86400 := by decide
  have hbelow : m.date.year ≤ 9999 ↔ ¬ 10000 ≤ m.date.year := by omega
  rw [hbelow, hvalid.le_year_iff, hvalid.le_year_iff]
  omega

theorem blank_mem_shown (m : Moment) : ' ' ∈ m.shown := by simp [shown]

theorem blank_not_mem_ofInt (n : Int) : ' ' ∉ Text.ofInt n := by
  intro hmem
  rcases List.mem_append.mp hmem with hsign | hdigit
  · unfold Text.sign at hsign
    split at hsign
    · exact absurd (List.mem_singleton.mp hsign) (by decide)
    · cases hsign
  · obtain ⟨d, hd, hblank⟩ := Segment.digit_of_mem_toDigits (by omega) hdigit
    exact digitChar_ne_blank hd hblank

end Moment

namespace Instant

variable {seconds seconds' : Int}

theorem text_cases {t : Text} (h : text seconds false = .ok t) :
    (∃ m : Moment, m.IsAt seconds ∧ t = m.shown) ∨ t = Text.ofInt seconds := by
  by_cases hbeyond : seconds < first ∨ last < seconds
  · rw [text_of_beyond hbeyond] at h
    exact .inr (Numeral.eq_of_write h)
  · obtain ⟨m, hm, -⟩ := Moment.existsUnique_isAt seconds
    rw [text_of_isAt hm (by omega) (by omega)] at h
    exact .inl ⟨m, hm, (Except.ok.inj h).symm⟩

theorem text_injective {t : Text} (h : text seconds false = .ok t)
    (h' : text seconds' false = .ok t) : seconds = seconds' := by
  -- dates have blanks and numbers have none
  rcases text_cases h with ⟨m, hm, hshown⟩ | hnumber
  · rcases text_cases h' with ⟨m', hm', hshown'⟩ | hnumber'
    · exact Moment.shown_injective hm hm' (hshown.symm.trans hshown')
    · have hblank := m.blank_mem_shown
      rw [← hshown, hnumber'] at hblank
      exact absurd hblank (Moment.blank_not_mem_ofInt seconds')
  · rcases text_cases h' with ⟨m', hm', hshown'⟩ | hnumber'
    · have hblank := m'.blank_mem_shown
      rw [← hshown', hnumber] at hblank
      exact absurd hblank (Moment.blank_not_mem_ofInt seconds)
    · exact Text.ofInt_injective (hnumber.symm.trans hnumber')

end Instant

/-! ## Three ways to count to an instant -/

theorem Width.decode_encode {w : Width} {n : Int} {signed : Bool} (e : Endianness)
    (h : w.Holds signed n) : w.decode signed e (w.encode e n) = n := by
  have hresidue : (w.residue n : Int) ≡ n [ZMOD 2 ^ w.bits] := by
    rw [w.residue_cast]
    exact Int.mod_modEq n _
  rw [decode, ByteOrder.decode_eq_value, w.value_encode]
  exact (w.holds_wrap signed _).eq_of_congruent h ((w.wrap_congruent signed _).trans hresidue)

namespace DateScale

/-- What a date counts up to some ticks behind an instant. -/
def count (scale : DateScale) (seconds ticks : Int) : Int :=
  match scale with
  | .seconds | .longSeconds => seconds
  | .fileTime => (seconds + 11644473600) * 10000000 + ticks

variable {seconds ticks : Int}

theorem instant_count (scale : DateScale) (hticks : 0 ≤ ticks ∧ ticks < 10000000) :
    scale.instant (scale.count seconds ticks) = seconds := by
  cases scale with
  | seconds => rfl
  | longSeconds => rfl
  | fileTime =>
    simp only [instant, count, Instant.ofFileTime]
    omega

theorem holds_count (scale : DateScale) (hseconds : 0 ≤ seconds ∧ seconds < 2 ^ 32)
    (hticks : 0 ≤ ticks ∧ ticks < 10000000) :
    scale.width.Holds false (scale.count seconds ticks) := by
  cases scale with
  | seconds => exact hseconds
  | longSeconds =>
    show 0 ≤ seconds ∧ seconds < 2 ^ 64
    omega
  | fileTime =>
    show 0 ≤ (seconds + 11644473600) * 10000000 + ticks ∧
      (seconds + 11644473600) * 10000000 + ticks < 2 ^ 64
    omega

/-- What the octets of a date count is not too far to be written. -/
theorem text_isOk (scale : DateScale) {n : Int} (h : scale.width.Holds false n) (isLocal : Bool) :
    ∃ t, Instant.text (scale.instant n) isLocal = .ok t := by
  have hsmall : (scale.instant n).natAbs < 10 ^ 20 := by
    have hn : 0 ≤ n ∧ n < 2 ^ 64 := by
      cases scale with
      | seconds => exact ⟨h.1, Int.lt_trans h.2 (by decide)⟩
      | longSeconds => exact h
      | fileTime => exact h
    cases scale with
    | seconds =>
      simp only [instant]
      omega
    | longSeconds =>
      simp only [instant]
      omega
    | fileTime =>
      simp only [instant, Instant.ofFileTime]
      omega
  exact Instant.text_isOk (Numeral.lt_limit hsmall) isLocal

end DateScale

/-- A text that stands in for the one that is read is all that a conversion of text shows. -/
theorem Template.render_shown (s : Stream) (position : Option Int) (t : Text) :
    render s position "%s".toList (some t) = .ok t := by
  have hpieces : pieces "%s".toList = [.conversion (bareConversion .text)] :=
    pieces_letter rfl []
  have hconversion : renderConversion s (some t) position (bareConversion .text) =
      .ok (t, position) := by
    have hkind : (bareConversion .text).kind = .text := rfl
    simp only [renderConversion, hkind, renderText, formatText_bare, ok_bind, pure_eq_ok]
  simp only [render, hpieces, renderPieces, hconversion, ok_bind, pure_eq_ok, List.append_nil]

theorem Operator.mem_all_of_relates {o : Operator} {v m : Int} (h : o.Relates v m) : o ∈ all := by
  cases o with
  | unknown name => exact h.elim
  | _ => decide

namespace DateTest

/-- The count is one that the test asks for. -/
def Accepts (t : DateTest) (n : Int) : Prop :=
  t.operator = .any ∨ ∃ m ∈ t.expected, t.operator.Relates n m

variable {t : DateTest} {n p : Int} {s : Stream}

theorem Accepts.mem_all (h : t.Accepts n) : t.operator ∈ Operator.all := by
  rcases h with hany | ⟨m, -, hrelates⟩
  · rw [hany]
    decide
  · exact Operator.mem_all_of_relates hrelates

theorem Accepts.compare (h : t.Accepts n) :
    (Value.int n).compare (.ofInt? t.expected) t.operator = .ok true := by
  rcases h with hany | ⟨m, hm, hrelates⟩
  · rw [hany]
    rfl
  · rw [Option.mem_def.mp hm, Value.ofInt?,
      Value.compare_int_relates n m (Operator.mem_all_of_relates hrelates),
      decide_eq_true hrelates]

theorem evaluate_of_accepts (hs : s.Readable) (hoffset : t.offset.LeadsTo s (some p))
    (hp : 0 ≤ p) (hn : t.scale.width.Holds false n)
    (hfound : Stream.Found s.content p.toNat (t.scale.width.encode t.endianness n))
    (h : t.Accepts n) : ∃ shown, Instant.text (t.scale.instant n) t.isLocal = .ok shown ∧
      (Test.date t).evaluate s "%s".toList = .ok (some shown) := by
  have hpos : 0 < t.scale.width.octets := by exact_mod_cast t.scale.width.octets_pos
  have hat : Bytes.at? s.content p t.scale.width.octets =
      some (t.scale.width.encode t.endianness n) :=
    (Bytes.at?_eq_some_iff hpos).mpr ⟨t.scale.width.length_encode t.endianness n, hp, hfound⟩
  have hdecode := Width.decode_encode t.endianness hn
  have hcompare := h.compare
  rw [← hdecode] at hcompare
  have hlimit : (t.scale.width.octets : Int) < Stream.sizeLimit s.backing :=
    Stream.lt_sizeLimit t.scale.width.octets_le_chunkSize _
  obtain ⟨shown, hshown⟩ := t.scale.text_isOk hn t.isLocal
  have hhit : (Test.date t).hit s =
      .ok (some ⟨some (p + t.scale.width.octets), some shown⟩) := by
    rw [Test.hit, Test.compareDecoded_of_at? hs hoffset hpos hlimit hat hcompare, hdecode]
    simp only [hshown, Except.toOption]
  refine ⟨shown, hshown, ?_⟩
  rw [Test.evaluate_of_hit (t := .date t) h.mem_all hhit, Template.render_shown]
  rfl

end DateTest

namespace Instant

/-- An instant with a date is written as the one moment of the calendar that it is, another one as
a number unless this is too long, and no two alike. Dates that count up to the same instant in
different ways, and in any order of octets, have one text. -/
theorem text_of_moment (seconds : Int) :
    (first ≤ seconds → seconds ≤ last → ∃ m : Moment, m.IsAt seconds ∧
      (∀ m' : Moment, m'.IsAt seconds → m' = m) ∧ text seconds false = .ok m.shown) ∧
    (seconds < first ∨ last < seconds →
      (seconds.natAbs < 10 ^ Numeral.decimalLimit →
        text seconds false = .ok (Text.ofInt seconds)) ∧
      (10 ^ Numeral.decimalLimit ≤ seconds.natAbs →
        text seconds false = .error .numberTooLong)) ∧
    (∀ m : Moment, m.IsAt seconds →
      (first ≤ seconds ∧ seconds ≤ last ↔ 1 ≤ m.date.year ∧ m.date.year ≤ 9999)) ∧
    (CivilDate.toDays ⟨1970, 1, 1⟩ = 0 ∧
      ∀ d : CivilDate, d.Valid → d.next.Valid ∧ d.next.toDays = d.toDays + 1) ∧
    (∀ seconds' t, text seconds false = .ok t → text seconds' false = .ok t →
      seconds = seconds') ∧
    ∀ ticks, 0 ≤ seconds ∧ seconds < 2 ^ 32 → 0 ≤ ticks ∧ ticks < 10000000 →
      ∃ shown, text seconds false = .ok shown ∧
      ∀ (t : DateTest) (s : Stream) (p : Int), s.Readable → t.offset.LeadsTo s (some p) → 0 ≤ p →
      Stream.Found s.content p.toNat
        (t.scale.width.encode t.endianness (t.scale.count seconds ticks)) →
      t.Accepts (t.scale.count seconds ticks) →
      (Test.date t).evaluate s "%s".toList = .ok (some shown) := by
  refine ⟨fun hfirst hlast => ?_, fun h => ⟨fun hlt => ?_, fun hle => ?_⟩,
    fun m h => h.year_iff, ⟨CivilDate.toDays_epoch, fun d h => ?_⟩,
    fun seconds' t h h' => text_injective h h', ?_⟩
  · obtain ⟨m, hm, hunique⟩ := Moment.existsUnique_isAt seconds
    exact ⟨m, hm, hunique, text_of_isAt hm hfirst hlast⟩
  · rw [text_of_beyond h, Numeral.write_of_lt hlt]
  · rw [text_of_beyond h, Numeral.write_of_le hle]
  · exact ⟨h.next, CivilDate.toDays_next h⟩
  · intro ticks hseconds hticks
    obtain ⟨shown, hshown⟩ := DateScale.seconds.text_isOk hseconds false
    refine ⟨shown, hshown, ?_⟩
    intro t s p hs hoffset hp hfound haccepts
    have hlate : first + secondsPerDay ≤ seconds := Int.le_trans (by decide) hseconds.1
    obtain ⟨shown', hshown', hevaluate⟩ := DateTest.evaluate_of_accepts hs hoffset hp
      (t.scale.holds_count hseconds hticks) hfound haccepts
    rw [t.scale.instant_count hticks, text_isLocal hlate] at hshown'
    obtain rfl : shown = shown' := Except.ok.inj (hshown.symm.trans hshown')
    exact hevaluate

/-- The leap day of a year that is a multiple of 400, counted in two ways. -/
theorem text_of_moment_leap_day :
    let seconds : Int := 951827696
    let m : Moment := ⟨⟨2000, 2, 29⟩, 2, 12, 34, 56⟩
    let long : Bytes := Width.long.encode .big (DateScale.seconds.count seconds 9999999)
    let quad : Bytes := Width.quad.encode .middle (DateScale.fileTime.count seconds 9999999)
    let s : Stream := .ofBytes (long ++ quad)
    let t : DateTest := .make (.fixed 0) .seconds true .big .any none
    let t' : DateTest := .make (.fixed 4) .fileTime false .middle .greater (some 0)
    m.IsAt seconds ∧ m.date.next = ⟨2000, 3, 1⟩ ∧
      text seconds false = .ok "Tue Feb 29 12:34:56 UTC 2000".toList ∧
      text (last + 1) false = .ok "253402300800".toList ∧
      s.Readable ∧ t.offset.LeadsTo s (some 0) ∧ t'.offset.LeadsTo s (some 4) ∧
      (Test.date t).evaluate s "%s".toList = .ok (some "Tue Feb 29 12:34:56 UTC 2000".toList) ∧
      (Test.date t').evaluate s "%s".toList = .ok (some "Tue Feb 29 12:34:56 UTC 2000".toList) := by
  intro seconds m long quad s t t'
  have hm : m.IsAt seconds :=
    ⟨⟨by decide, by decide⟩, by decide, by decide, by decide, by decide, by decide⟩
  have hs : s.Readable := ⟨⟨rfl, nofun⟩, by decide⟩
  have hoffset : t.offset.LeadsTo s (some 0) := Offset.leadsTo_fixed s (by decide)
  have hoffset' : t'.offset.LeadsTo s (some 4) := Offset.leadsTo_fixed s (by decide)
  obtain ⟨hmoment, -, -, -, -, hdates⟩ := text_of_moment seconds
  obtain ⟨-, hnumber, -⟩ := text_of_moment (last + 1)
  have htext : text seconds false = .ok "Tue Feb 29 12:34:56 UTC 2000".toList := by
    obtain ⟨m', -, hunique, hshown⟩ := hmoment (by decide) (by decide)
    rw [hshown, ← hunique m hm]
    decide
  have hshort : (last + 1).natAbs < 10 ^ Numeral.decimalLimit := Numeral.lt_limit (by decide)
  obtain ⟨shown, hshown, hdates'⟩ := hdates 9999999 (by decide) (by decide)
  obtain rfl : "Tue Feb 29 12:34:56 UTC 2000".toList = shown :=
    Except.ok.inj (htext.symm.trans hshown)
  refine ⟨hm, rfl, htext, (hnumber (.inr (by decide))).1 hshort, hs, hoffset, hoffset', ?_, ?_⟩
  · exact hdates' t s 0 hs hoffset (by decide) (by decide) (.inl rfl)
  · have haccepts : t'.Accepts (t'.scale.count seconds 9999999) := .inr ⟨0, rfl, by decide⟩
    exact hdates' t' s 4 hs hoffset' (by decide) (by decide) haccepts

theorem natAbs_power (k : Nat) : ((10 : Int) ^ k).natAbs = 10 ^ k := by
  rw [Int.natAbs_pow]
  rfl

/-- An instant after the years that have dates whose numeral is too long. -/
theorem text_of_power_fails : last < 10 ^ Numeral.decimalLimit ∧
    text (10 ^ Numeral.decimalLimit) false = .error .numberTooLong := by
  have habs := natAbs_power Numeral.decimalLimit
  have hlast : last < 10 ^ Numeral.decimalLimit := by
    have hlt : last.natAbs < ((10 : Int) ^ Numeral.decimalLimit).natAbs := by
      rw [habs]
      exact Numeral.lt_limit (by decide)
    have hpos : (0 : Int) ≤ 10 ^ Numeral.decimalLimit := Int.pow_nonneg (by decide)
    omega
  rw [text_of_beyond (.inr hlast), Numeral.write_of_le (Nat.le_of_eq habs.symm)]
  exact ⟨hlast, rfl⟩

end Instant

end FileMagic
