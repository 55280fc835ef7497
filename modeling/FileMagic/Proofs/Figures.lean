import FileMagic.Numeral
import Mathlib.Data.Nat.Digits.Lemmas
import Mathlib.Tactic.Ring

/-! # The figures of numerals

Figures are digits with single underscores between them, together with the digits that they stand
for (`Figures`), and what they count is the positional value of these. The reader accepts the same
texts with a check from left to right (`figures_iff`), and adds up to the same value once the
underscores are gone (`positional_eq`). The digits of a number, in small or capital letters, are
figures that count it (`exists_figures_writing`). -/

namespace FileMagic.Numeral

/-- A character that stands for a digit of a base; letters may be capital. -/
def Digit (base : Nat) (c : Char) (v : Nat) : Prop :=
  v < base ∧ (c = v.digitChar ∨ c = v.digitChar.toUpper)

/-- Digits with single underscores between them, and the digits. -/
inductive Figures (base : Nat) : Text → List Nat → Prop
  | last {c : Char} {v : Nat} : Digit base c v → Figures base [c] [v]
  | next {c : Char} {v : Nat} {t : Text} {vs : List Nat} :
    Digit base c v → Figures base t vs → Figures base (c :: t) (v :: vs)
  | apart {c : Char} {v : Nat} {t : Text} {vs : List Nat} :
    Digit base c v → Figures base t vs → Figures base (c :: '_' :: t) (v :: vs)

/-- The positional value of digits, the most significant one first. -/
def valueOf (base : Nat) (digits : List Nat) : Nat := Nat.ofDigits base digits.reverse

variable {base : Nat} {c : Char} {v : Nat} {t : Text} {vs : List Nat}

/-! ## Digits -/

theorem eq_digitChar_of_toNat {n : Nat} (hn : n < 10) (h : c.toNat = 48 + n) : c = n.digitChar :=
  Char.toNat_inj.mp (h.trans (Nat.toNat_digitChar_of_lt_ten hn).symm)

theorem eq_digitChar_of_toNat_letter {n : Nat} (hlow : 10 ≤ n) (hhigh : n < 16) :
    (c.toNat = 87 + n → c = n.digitChar) ∧ (c.toNat = 55 + n → c = n.digitChar.toUpper) := by
  have hsmall : ∀ n < 16, 10 ≤ n → n.digitChar.toNat = 87 + n := by decide
  have hcapital : ∀ n < 16, 10 ≤ n → n.digitChar.toUpper.toNat = 55 + n := by decide
  exact ⟨fun h => Char.toNat_inj.mp (h.trans (hsmall n hhigh hlow).symm),
    fun h => Char.toNat_inj.mp (h.trans (hcapital n hhigh hlow).symm)⟩

theorem figure?_eq_some_iff :
    figure? c = some v ↔ v < 16 ∧ (c = v.digitChar ∨ c = v.digitChar.toUpper) := by
  constructor
  · intro h
    unfold figure? at h
    simp only [Bool.and_eq_true, decide_eq_true_eq] at h
    split at h
    · next hdigit =>
      cases h
      have hlow : 48 ≤ c.toNat := hdigit.1
      have hhigh : c.toNat ≤ 57 := hdigit.2
      exact ⟨by omega, .inl (eq_digitChar_of_toNat (by omega) (by omega))⟩
    · split at h
      · next hletter =>
        cases h
        have hlow : 97 ≤ c.toNat := hletter.1
        have hhigh : c.toNat ≤ 102 := hletter.2
        exact ⟨by omega, .inl ((eq_digitChar_of_toNat_letter (by omega) (by omega)).1 (by omega))⟩
      · split at h
        · next hletter =>
          cases h
          have hlow : 65 ≤ c.toNat := hletter.1
          have hhigh : c.toNat ≤ 70 := hletter.2
          exact ⟨by omega, .inr ((eq_digitChar_of_toNat_letter (by omega) (by omega)).2 (by omega))⟩
        · cases h
  · have hall : ∀ v < 16, figure? v.digitChar = some v ∧ figure? v.digitChar.toUpper = some v := by
      decide
    rintro ⟨hv, rfl | rfl⟩
    · exact (hall v hv).1
    · exact (hall v hv).2

theorem Digit.figure? (h : Digit base c v) (hbase : base ≤ 16) : figure? c = some v :=
  figure?_eq_some_iff.mpr ⟨by have := h.1; omega, h.2⟩

theorem isFigure_iff (hbase : base ≤ 16) : isFigure base c = true ↔ ∃ v, Digit base c v := by
  unfold isFigure
  constructor
  · intro h
    split at h
    · next v hv =>
      exact ⟨v, of_decide_eq_true h, (figure?_eq_some_iff.mp hv).2⟩
    · cases h
  · rintro ⟨v, hv⟩
    rw [hv.figure? hbase]
    exact decide_eq_true hv.1

theorem Digit.isFigure (h : Digit base c v) (hbase : base ≤ 16) : isFigure base c = true :=
  (isFigure_iff hbase).mpr ⟨v, h⟩

theorem Digit.ne (h : Digit base c v) (hbase : base ≤ 16) {d : Char}
    (hd : Numeral.figure? d = none) : c ≠ d := by
  rintro rfl
  rw [h.figure? hbase] at hd
  cases hd

theorem Digit.ne_underscore (h : Digit base c v) (hbase : base ≤ 16) : c ≠ '_' := h.ne hbase rfl

theorem zero_digit (hbase : 0 < base) : Digit base '0' 0 := ⟨hbase, .inl rfl⟩

/-! ## Figures -/

theorem Figures.belongs (h : Figures base t vs) (hbase : base ≤ 16) :
    ∀ c ∈ t, belongs base c = true := by
  have hdigit : ∀ {c v}, Digit base c v → Numeral.belongs base c = true := fun hd => by
    simp [Numeral.belongs, hd.isFigure hbase]
  have hunder : Numeral.belongs base '_' = true := by simp [Numeral.belongs]
  induction h with
  | last hd => simpa using hdigit hd
  | next hd _ ih => exact List.forall_mem_cons.mpr ⟨hdigit hd, ih⟩
  | apart hd _ ih =>
    exact List.forall_mem_cons.mpr ⟨hdigit hd, List.forall_mem_cons.mpr ⟨hunder, ih⟩⟩

theorem Figures.separatedFrom (h : Figures base t vs) (hbase : base ≤ 16) (apart : Bool) :
    separatedFrom apart t = true := by
  induction h generalizing apart with
  | last hd => simp [Numeral.separatedFrom, hd.ne_underscore hbase]
  | next hd _ ih => simpa [Numeral.separatedFrom, hd.ne_underscore hbase] using ih false
  | apart hd _ ih => simpa [Numeral.separatedFrom, hd.ne_underscore hbase] using ih true

/-- What may stand behind a figure is nothing, or figures, or one underscore and figures. -/
theorem exists_figures (hbase : base ≤ 16) (hall : ∀ c ∈ t, belongs base c = true) :
    (separatedFrom true t = true → ∃ vs, Figures base t vs) ∧
      (separatedFrom false t = true → t = [] ∨ (∃ vs, Figures base t vs) ∨
        ∃ rest vs, t = '_' :: rest ∧ Figures base rest vs) := by
  induction t with
  | nil => exact ⟨fun h => absurd h (by decide), fun _ => .inl rfl⟩
  | cons c rest ih =>
    obtain ⟨hc, hrest⟩ := List.forall_mem_cons.mp hall
    obtain ⟨ihapart, ihnext⟩ := ih hrest
    by_cases hunder : c = '_'
    · subst hunder
      refine ⟨fun h => by simp [separatedFrom] at h, fun h => ?_⟩
      obtain ⟨vs, hvs⟩ := ihapart (by simpa [separatedFrom] using h)
      exact .inr (.inr ⟨rest, vs, rfl, hvs⟩)
    · obtain ⟨v, hv⟩ := (isFigure_iff hbase).mp (by simpa [belongs, hunder] using hc)
      have hfigures : separatedFrom false rest = true → ∃ vs, Figures base (c :: rest) vs := by
        intro h
        obtain rfl | ⟨vs, hvs⟩ | ⟨others, vs, rfl, hvs⟩ := ihnext h
        · exact ⟨[v], .last hv⟩
        · exact ⟨v :: vs, .next hv hvs⟩
        · exact ⟨v :: vs, .apart hv hvs⟩
      simp only [separatedFrom, if_neg hunder]
      exact ⟨hfigures, fun h => .inr (.inl (hfigures h))⟩

theorem figures_iff (hbase : base ≤ 16) :
    (∃ vs, Figures base t vs) ↔ (∀ c ∈ t, belongs base c = true) ∧ separated t = true :=
  ⟨fun ⟨_, h⟩ => ⟨h.belongs hbase, h.separatedFrom hbase true⟩,
    fun ⟨hall, h⟩ => (exists_figures hbase hall).1 h⟩

/-- The figures without the underscores, one for each digit. -/
theorem Figures.digits (h : Figures base t vs) (hbase : base ≤ 16) :
    List.Forall₂ (Digit base) (t.filter (· ≠ '_')) vs := by
  induction h with
  | last hd => simpa [hd.ne_underscore hbase] using hd
  | next hd _ ih => simpa [hd.ne_underscore hbase] using List.Forall₂.cons hd ih
  | apart hd _ ih => simpa [hd.ne_underscore hbase] using List.Forall₂.cons hd ih

theorem valueOf_cons (v : Nat) (vs : List Nat) :
    valueOf base (v :: vs) = v * base ^ vs.length + valueOf base vs := by
  rw [valueOf, Nat.ofDigits_reverse_cons, Nat.mul_comm v, Nat.add_comm]
  rfl

theorem valueOf_concat (vs : List Nat) (v : Nat) :
    valueOf base (vs ++ [v]) = base * valueOf base vs + v := by
  rw [valueOf, List.reverse_append, List.reverse_singleton, List.singleton_append,
    Nat.ofDigits_cons, Nat.add_comm]
  rfl

theorem positional_eq {figures : Text} (h : List.Forall₂ (Digit base) figures vs)
    (hbase : base ≤ 16) : positional base figures = valueOf base vs := by
  -- a value that is there before the first figure is shifted by all of them
  have hfrom : ∀ n, figures.foldl (fun n c => n * base + (figure? c).getD 0) n =
      n * base ^ vs.length + valueOf base vs := by
    induction h with
    | nil => simp [valueOf]
    | @cons c v figures vs hd _ ih =>
      intro n
      rw [List.foldl_cons, hd.figure? hbase, ih, valueOf_cons, List.length_cons]
      simp only [Option.getD_some]
      ring
  simpa [positional] using hfrom 0

/-! ## The digits of a number -/

/-- The digits of a number without leading zeros, in small and in capital letters. -/
def writings (base n : Nat) : List Text :=
  [Nat.toDigits base n, (Nat.toDigits base n).map Char.toUpper]

theorem Figures.concat (h : Figures base t vs) (hd : Digit base c v) :
    Figures base (t ++ [c]) (vs ++ [v]) := by
  induction h with
  | last hfirst => exact .next hfirst (.last hd)
  | next hfirst _ ih => exact .next hfirst ih
  | apart hfirst _ ih => exact .apart hfirst ih

theorem Figures.ne_nil (h : Figures base t vs) : vs ≠ [] := by
  cases h <;> exact List.cons_ne_nil _ _

/-- Figures that start with a zero have a zero as their first digit. -/
theorem Figures.head (h : Figures base t vs) (hbase : base ≤ 16) (hzero : t.head? = some '0') :
    vs.head? = some 0 := by
  have hdigit : ∀ {c v}, Digit base c v → c = '0' → v = 0 := by
    rintro c v hd rfl
    exact (Option.some.inj (hd.figure? hbase)).symm
  cases h with
  | last hd => simpa using hdigit hd (by simpa using hzero)
  | next hd _ => simpa using hdigit hd (by simpa using hzero)
  | apart hd _ => simpa using hdigit hd (by simpa using hzero)

theorem exists_figures_toDigits (hbase : 1 < base) (n : Nat) :
    ∃ vs, Figures base (Nat.toDigits base n) vs ∧ vs.length = (Nat.toDigits base n).length ∧
      valueOf base vs = n ∧ (0 < n → vs.head? ≠ some 0) := by
  induction n using Nat.strongRecOn with
  | _ n ih =>
    rw [Nat.toDigits_eq_if hbase]
    split
    · next hlt =>
      exact ⟨[n], .last ⟨hlt, .inl rfl⟩, rfl, by simp [valueOf],
        fun hpos h => hpos.ne' (Option.some.inj h)⟩
    · next hge =>
      obtain ⟨vs, hvs, hlength, hvalue, hhead⟩ := ih (n / base) (Nat.div_lt_self (by omega) hbase)
      have hlast : Digit base (n % base).digitChar (n % base) :=
        ⟨Nat.mod_lt n (by omega), .inl rfl⟩
      refine ⟨vs ++ [n % base], hvs.concat hlast, by simp [hlength], ?_, fun _ => ?_⟩
      · rw [valueOf_concat, hvalue, Nat.div_add_mod]
      · rw [List.head?_append_of_ne_nil _ hvs.ne_nil]
        exact hhead (Nat.div_pos (by omega) (by omega))

/-- Capital letters stand for the same digits. -/
theorem Figures.map_toUpper (h : Figures base t vs) (hbase : base ≤ 16) :
    Figures base (t.map Char.toUpper) vs := by
  have hdigit : ∀ {c v}, Digit base c v → Digit base c.toUpper v := by
    have htwice : ∀ v < 16, v.digitChar.toUpper.toUpper = v.digitChar.toUpper := by decide
    rintro c v ⟨hlt, rfl | rfl⟩
    · exact ⟨hlt, .inr rfl⟩
    · exact ⟨hlt, .inr (htwice v (by omega))⟩
  induction h with
  | last hd => exact .last (hdigit hd)
  | next hd _ ih => exact .next (hdigit hd) ih
  | apart hd _ ih => exact .apart (hdigit hd) ih

theorem exists_figures_writing {n : Nat} {digits : Text} (hlow : 1 < base) (hhigh : base ≤ 16)
    (h : digits ∈ writings base n) :
    ∃ vs, Figures base digits vs ∧ vs.length = digits.length ∧ valueOf base vs = n ∧
      (0 < n → digits.head? ≠ some '0') := by
  obtain ⟨vs, hvs, hlength, hvalue, hhead⟩ := exists_figures_toDigits hlow n
  have hcapital := hvs.map_toUpper hhigh
  simp only [writings, List.mem_cons, List.not_mem_nil, or_false] at h
  obtain rfl | rfl := h
  · exact ⟨vs, hvs, hlength, hvalue, fun hpos hzero => hhead hpos (hvs.head hhigh hzero)⟩
  · exact ⟨vs, hcapital, by simp [hlength], hvalue,
      fun hpos hzero => hhead hpos (hcapital.head hhigh hzero)⟩

end FileMagic.Numeral
