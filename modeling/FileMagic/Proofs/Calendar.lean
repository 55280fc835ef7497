import FileMagic.Date
import Mathlib.Order.Nat

/-! # The calendar

Dates follow each other from one day to the next, over the ends of months and of years, and the days
from the first of January 1970 are counted along (`CivilDate.toDays_next`). Every day is that of one
date only (`CivilDate.existsUnique_toDays`). The engine finds it by parts of an era of 400 years: a
century, a cycle of four years, a year that starts in March and the day of that year
(`CivilDate.EraDay`). -/

namespace FileMagic

namespace CivilDate

/-- The days of a month, which are counted from one. -/
def daysInMonth (leap : Bool) (month : Nat) : Nat :=
  [31, if leap then 29 else 28, 31, 30, 31, 30, 31, 31, 30, 31, 30, 31].getD (month - 1) 0

/-- A date of the calendar. -/
structure Valid (d : CivilDate) : Prop where
  month : 1 ≤ d.month ∧ d.month ≤ 12
  day : 1 ≤ d.day ∧ d.day ≤ daysInMonth (isLeap d.year) d.month

/-- The date of the day after. -/
def next (d : CivilDate) : CivilDate :=
  if d.day < daysInMonth (isLeap d.year) d.month then ⟨d.year, d.month, d.day + 1⟩
  else if d.month < 12 then ⟨d.year, d.month + 1, 1⟩
  else ⟨d.year + 1, 1, 1⟩

/-! ## From one day to the next -/

theorem isLeap_iff (year : Int) :
    isLeap year = true ↔ year % 4 = 0 ∧ (year % 100 ≠ 0 ∨ year % 400 = 0) := by
  simp [isLeap]

/-- The leap days of a year. -/
def leapDays (leap : Bool) : Nat := if leap then 1 else 0

theorem daysBeforeYear_eq (year : Int) : daysBeforeYear year =
    (year - 1) * 365 + (year - 1) / 4 - (year - 1) / 100 + (year - 1) / 400 - 719162 := rfl

theorem daysBeforeYear_succ (year : Int) :
    daysBeforeYear (year + 1) = daysBeforeYear year + 365 + leapDays (isLeap year) := by
  rw [daysBeforeYear_eq, daysBeforeYear_eq, leapDays]
  split
  · next h =>
    have hleap := (isLeap_iff year).mp h
    omega
  · next h =>
    have hleap := mt (isLeap_iff year).mpr h
    omega

theorem daysBeforeYear_le {y z : Int} (h : y ≤ z) : daysBeforeYear y ≤ daysBeforeYear z := by
  rw [daysBeforeYear_eq, daysBeforeYear_eq]
  omega

theorem daysBeforeMonth_succ (leap : Bool) {month : Nat} (hlow : 1 ≤ month) (hhigh : month < 12) :
    daysBeforeMonth leap (month + 1) = daysBeforeMonth leap month + daysInMonth leap month := by
  have hall : ∀ leap, ∀ month < 12, 1 ≤ month →
      daysBeforeMonth leap (month + 1) = daysBeforeMonth leap month + daysInMonth leap month := by
    decide
  exact hall leap month hhigh hlow

theorem daysBeforeMonth_first (leap : Bool) : daysBeforeMonth leap 1 = 0 := by
  cases leap <;> rfl

theorem daysBeforeMonth_last (leap : Bool) :
    daysBeforeMonth leap 12 + daysInMonth leap 12 = 365 + leapDays leap := by
  cases leap <;> rfl

theorem daysInMonth_pos (leap : Bool) {month : Nat} (hlow : 1 ≤ month) (hhigh : month ≤ 12) :
    1 ≤ daysInMonth leap month := by
  have hall : ∀ leap, ∀ month < 13, 1 ≤ month → 1 ≤ daysInMonth leap month := by decide
  exact hall leap month (Nat.lt_succ_of_le hhigh) hlow

theorem daysInMonth_le (leap : Bool) {month : Nat} (hhigh : month ≤ 12) :
    daysInMonth leap month ≤ 31 := by
  have hall : ∀ leap, ∀ month < 13, daysInMonth leap month ≤ 31 := by decide
  exact hall leap month (Nat.lt_succ_of_le hhigh)

theorem toDays_epoch : toDays ⟨1970, 1, 1⟩ = 0 := by decide

variable {d d' : CivilDate}

theorem Valid.next (h : d.Valid) : d.next.Valid := by
  obtain ⟨hmonth, hday⟩ := h
  unfold CivilDate.next
  split
  · next hlt => exact ⟨hmonth, Nat.le_add_left 1 _, hlt⟩
  · split
    · next hlt =>
      have hmonth' : 1 ≤ d.month + 1 ∧ d.month + 1 ≤ 12 := ⟨Nat.le_add_left 1 _, hlt⟩
      exact ⟨hmonth', Nat.le_refl 1, daysInMonth_pos _ hmonth'.1 hmonth'.2⟩
    · exact ⟨⟨Nat.le_refl 1, Nat.le_add_left 1 11⟩, Nat.le_refl 1,
        daysInMonth_pos _ (Nat.le_refl 1) (Nat.le_add_left 1 11)⟩

theorem toDays_next (h : d.Valid) : d.next.toDays = d.toDays + 1 := by
  obtain ⟨hmonth, hday⟩ := h
  unfold next
  split
  · simp only [toDays]
    omega
  · next hend =>
    have hlastDay : d.day = daysInMonth (isLeap d.year) d.month := by omega
    split
    · next hlt =>
      have hsucc := daysBeforeMonth_succ (isLeap d.year) hmonth.1 hlt
      simp only [toDays, hsucc]
      omega
    · next hle =>
      have hdecember : d.month = 12 := by omega
      have hlast := daysBeforeMonth_last (isLeap d.year)
      rw [hdecember] at hlastDay
      simp only [toDays, daysBeforeYear_succ, daysBeforeMonth_first, hdecember]
      omega

/-! ## One date for a day -/

/-- The months follow each other. -/
theorem daysBeforeMonth_le (leap : Bool) {m m' : Nat} (hlow : 1 ≤ m) (hlt : m < m')
    (hhigh : m' ≤ 12) : daysBeforeMonth leap m + daysInMonth leap m ≤ daysBeforeMonth leap m' := by
  induction m', hlt using Nat.le_induction with
  | base => exact Nat.le_of_eq (daysBeforeMonth_succ leap hlow hhigh).symm
  | succ m' hlt ih =>
    have hstep := daysBeforeMonth_succ leap (Nat.le_trans hlow (Nat.le_of_lt hlt)) hhigh
    have hbefore := ih (Nat.le_of_lt hhigh)
    omega

theorem Valid.dayOfYear_le (h : d.Valid) :
    daysBeforeMonth (isLeap d.year) d.month + d.day ≤ 365 + leapDays (isLeap d.year) := by
  obtain ⟨hmonth, hday⟩ := h
  have hlast := daysBeforeMonth_last (isLeap d.year)
  by_cases hdecember : d.month = 12
  · rw [hdecember] at hday ⊢
    omega
  · have hle := daysBeforeMonth_le (isLeap d.year) hmonth.1 (by omega) (Nat.le_refl 12)
    omega

/-- A date lies within its year. -/
theorem Valid.toDays_bounds (h : d.Valid) :
    daysBeforeYear d.year ≤ d.toDays ∧ d.toDays < daysBeforeYear (d.year + 1) := by
  have hle := h.dayOfYear_le
  have hday := h.day.1
  rw [daysBeforeYear_succ, toDays]
  omega

theorem Valid.le_year_iff (h : d.Valid) {year : Int} :
    year ≤ d.year ↔ daysBeforeYear year ≤ d.toDays := by
  obtain ⟨hlow, hhigh⟩ := h.toDays_bounds
  constructor
  · intro hle
    exact Int.le_trans (daysBeforeYear_le hle) hlow
  · intro hle
    refine Int.not_lt.mp fun hlt => ?_
    have hyears := daysBeforeYear_le (Int.add_one_le_of_lt hlt)
    omega

theorem Valid.year_le (h : d.Valid) (h' : d'.Valid) (hle : d.toDays ≤ d'.toDays) :
    d.year ≤ d'.year :=
  h'.le_year_iff.mpr (Int.le_trans h.toDays_bounds.1 hle)

theorem Valid.month_le (h : d.Valid) (h' : d'.Valid) (hyear : d.year = d'.year)
    (hle : d.toDays ≤ d'.toDays) : d.month ≤ d'.month := by
  refine Nat.not_lt.mp fun hlt => ?_
  have hmonths := daysBeforeMonth_le (isLeap d'.year) h'.month.1 hlt h.month.2
  have hday := h.day.1
  have hday' := h'.day.2
  rw [toDays, toDays, hyear] at hle
  omega

theorem toDays_injective (h : d.Valid) (h' : d'.Valid) (heq : d.toDays = d'.toDays) : d = d' := by
  have hle := Int.le_of_eq heq
  have hge := Int.le_of_eq heq.symm
  have hyear := Int.le_antisymm (h.year_le h' hle) (h'.year_le h hge)
  have hmonth := Nat.le_antisymm (h.month_le h' hyear hle) (h'.month_le h hyear.symm hge)
  have hday : d.day = d'.day := by
    rw [toDays, toDays, hyear, hmonth] at heq
    omega
  cases d
  cases d'
  simp only [mk.injEq]
  exact ⟨hyear, hmonth, hday⟩

/-! ## The parts of an era -/

/-- A day of an era is day `n` of year `k` of cycle `q` of century `c`. -/
structure EraDay (day c q k n : Nat) : Prop where
  century : c ≤ 3
  cycle : q ≤ 24
  year : k ≤ 3
  dayOfYear : n < 365 ∨ n = 365 ∧ k = 3 ∧ (q = 24 → c = 3)
  sum : day = 36524 * c + 1461 * q + 365 * k + n

variable {day c q k n : Nat}

theorem exists_eraDay (h : day < 146097) : ∃ c q k n, EraDay day c q k n := by
  by_cases hlast : day = 146096
  -- the leap day that the last century has and the others have not
  · exact ⟨3, 24, 3, 365, by omega, by omega, by omega, by omega, hlast⟩
  · refine ⟨day / 36524, day % 36524 / 1461, min (day % 36524 % 1461 / 365) 3,
      day % 36524 % 1461 - 365 * min (day % 36524 % 1461 / 365) 3, ?_, ?_, ?_, ?_, ?_⟩
    all_goals omega

/-- The year of a day of an era, with a day dropped for each leap day before. -/
theorem EraDay.yearOfEra (h : EraDay day c q k n) :
    (day - day / 1460 + day / 36524 - day / 146096) / 365 = 100 * c + 4 * q + k := by
  obtain ⟨hc, hq, hk, hn, hsum⟩ := h
  by_cases hlast : day = 146096
  · omega
  · have hn' : n ≤ 365 := by omega
    -- the leap day of a cycle is dropped up to 96 days too early, but in its last year
    generalize ht : (24 * c + q + 365 * k + n) / 1460 = t
    have hcentury : day / 36524 = c := by omega
    have hera : day / 146096 = 0 := by omega
    have hfour : day / 1460 = 25 * c + q + t := by omega
    have hdropped : t ≤ n ∧ n - t < 365 := by omega
    rw [hcentury, hera, hfour]
    omega

theorem EraDay.dayOfYear_le (h : EraDay day c q k n) : n ≤ 365 := by
  rcases h.dayOfYear with hn | ⟨hn, -⟩
  · exact Nat.le_of_lt hn
  · exact Nat.le_of_eq hn

theorem EraDay.dayOfYear_eq (h : EraDay day c q k n) :
    day - (365 * (100 * c + 4 * q + k) + (100 * c + 4 * q + k) / 4 -
      (100 * c + 4 * q + k) / 100) = n := by
  obtain ⟨hc, hq, hk, hn, rfl⟩ := h
  omega

/-- The date of day `n` of a year that starts in March. -/
def ofMarch (year : Int) (n : Nat) : CivilDate :=
  let month := (5 * n + 2) / 153
  ⟨if month < 10 then year else year + 1, if month < 10 then month + 3 else month - 9,
    n - (153 * month + 2) / 5 + 1⟩

theorem EraDay.ofDays_eq (h : EraDay day c q k n) (era : Int) :
    ofDays (146097 * era + day - 719468) = ofMarch (400 * era + 100 * c + 4 * q + k) n := by
  have hday : day < 146097 := by
    obtain ⟨hc, hq, hk, hn, rfl⟩ := h
    omega
  have hn := h.dayOfYear_le
  have hera : (146097 * era + day - 719468 + 719468) / 146097 = era := by omega
  have hdayOfEra : ((146097 * era + day - 719468 + 719468) % 146097).toNat = day := by omega
  simp only [ofDays, eraDays, epochShift, hera, hdayOfEra, h.yearOfEra, h.dayOfYear_eq, ofMarch,
    mk.injEq, and_true]
  split
  · next hmonth =>
    rw [if_neg (by omega)]
    omega
  · next hmonth =>
    rw [if_pos (by omega)]
    omega

/-- The days before a month, in years that start in March. -/
theorem daysBeforeMonth_march (leap : Bool) {month : Nat} (h : month < 12) :
    if month < 10 then
      daysBeforeMonth leap (month + 3) = 59 + leapDays leap + (153 * month + 2) / 5
    else daysBeforeMonth leap (month - 9) + 306 = (153 * month + 2) / 5 := by
  have hall : ∀ leap, ∀ month < 12, if month < 10 then
      daysBeforeMonth leap (month + 3) = 59 + leapDays leap + (153 * month + 2) / 5
    else daysBeforeMonth leap (month - 9) + 306 = (153 * month + 2) / 5 := by decide
  exact hall leap month h

theorem daysInMonth_march (leap : Bool) {month : Nat} (h : month < 12) :
    (153 * month + 2) / 5 + daysInMonth leap (if month < 10 then month + 3 else month - 9) =
      min ((153 * (month + 1) + 2) / 5) (365 + leapDays leap) := by
  have hall : ∀ leap, ∀ month < 12,
      (153 * month + 2) / 5 + daysInMonth leap (if month < 10 then month + 3 else month - 9) =
        min ((153 * (month + 1) + 2) / 5) (365 + leapDays leap) := by decide
  exact hall leap month h

theorem toDays_ofMarch (year : Int) (hn : n ≤ 365) :
    (ofMarch year n).toDays = daysBeforeYear (year + 1) - 306 + n := by
  have hmonth : (5 * n + 2) / 153 < 12 := by omega
  have hbefore := fun leap => daysBeforeMonth_march leap hmonth
  unfold ofMarch toDays
  simp only
  split
  · next hlt =>
    have hsucc := daysBeforeYear_succ year
    have hmonths := hbefore (isLeap year)
    rw [if_pos hlt] at hmonths
    omega
  · next hge =>
    have hmonths := hbefore (isLeap (year + 1))
    rw [if_neg hge] at hmonths
    omega

theorem ofMarch_valid {year : Int} (hn : n < 365 + leapDays (isLeap (year + 1))) :
    (ofMarch year n).Valid := by
  have hleap : leapDays (isLeap (year + 1)) ≤ 1 := by
    unfold leapDays
    split <;> decide
  have hmonth : (5 * n + 2) / 153 < 12 := by omega
  have hdays := fun leap => daysInMonth_march leap hmonth
  unfold ofMarch
  refine ⟨?_, ?_⟩
  · simp only
    split <;> omega
  · simp only
    refine ⟨Nat.le_add_left 1 _, ?_⟩
    split
    · next hlt =>
      have hdays := hdays (isLeap year)
      rw [if_pos hlt] at hdays
      omega
    · next hge =>
      have hdays := hdays (isLeap (year + 1))
      rw [if_neg hge] at hdays
      omega

/-- The last day of a year of 366 days is before the first of March of a leap year. -/
theorem EraDay.dayOfYear_lt (h : EraDay day c q k n) (era : Int) :
    n < 365 + leapDays (isLeap (400 * era + 100 * c + 4 * q + k + 1)) := by
  obtain ⟨hc, hq, hk, hn, -⟩ := h
  rcases hn with hn | ⟨rfl, rfl, hcentury⟩
  · omega
  · have hleap : isLeap (400 * era + 100 * c + 4 * q + (3 : Nat) + 1) = true := by
      rw [isLeap_iff]
      omega
    rw [hleap]
    decide

theorem EraDay.daysBeforeYear (h : EraDay day c q k n) (era : Int) :
    daysBeforeYear (400 * era + 100 * c + 4 * q + k + 1) - 306 + n =
      146097 * era + day - 719468 := by
  obtain ⟨hc, hq, hk, hn, rfl⟩ := h
  rw [daysBeforeYear_eq]
  omega

theorem ofDays_spec (days : Int) : (ofDays days).Valid ∧ (ofDays days).toDays = days := by
  have hday : ((days + 719468) % 146097).toNat < 146097 := by omega
  obtain ⟨c, q, k, n, h⟩ := exists_eraDay hday
  have hdays : days =
      146097 * ((days + 719468) / 146097) + ((days + 719468) % 146097).toNat - 719468 := by omega
  have hlt := h.dayOfYear_lt ((days + 719468) / 146097)
  rw [hdays, h.ofDays_eq]
  refine ⟨ofMarch_valid hlt, ?_⟩
  rw [toDays_ofMarch _ h.dayOfYear_le, h.daysBeforeYear]

/-- Every day is the day of one date. -/
theorem existsUnique_toDays (days : Int) : ∃! d : CivilDate, d.Valid ∧ d.toDays = days := by
  obtain ⟨hvalid, hdays⟩ := ofDays_spec days
  refine ⟨ofDays days, ⟨hvalid, hdays⟩, ?_⟩
  rintro d ⟨hd, hsame⟩
  exact toDays_injective hd hvalid (hsame.trans hdays.symm)

end CivilDate
end FileMagic
