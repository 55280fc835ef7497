import FileMagic.Pattern.Engine
import FileMagic.Proofs.Literal
import FileMagic.RuleText.Line
import FileMagic.Test.Evaluate

/-! # Extenders

An extender is read character by character, and flags and digits are kept apart: every digit comes
behind those before it, every flag is added to those that are there (`Marks.Gains`). So where the
letters stand between the digits, and how often each of them, is forgotten by the end, and what is
left is the number that the digits write and which letters occur (`parse_eq_ok_iff`). -/

namespace FileMagic

namespace Numeral

variable {base : Nat} {c : Char} {t : Text} {vs vs' : List Nat}

/-- The value of a decimal digit. -/
def digitValue (c : Char) : Nat := c.toNat - 48

theorem digit_of_isDigit (h : c.isDigit = true) : Digit 10 c (digitValue c) := by
  simp only [Char.isDigit, Bool.and_eq_true, decide_eq_true_eq] at h
  have hlow : 48 ≤ c.toNat := h.1
  have hhigh : c.toNat ≤ 57 := h.2
  have hvalue : digitValue c < 10 := by rw [digitValue]; omega
  exact ⟨hvalue, .inl (eq_digitChar_of_toNat hvalue (by rw [digitValue]; omega))⟩

theorem figures_of_isDigit (hne : t ≠ []) (h : ∀ c ∈ t, c.isDigit = true) :
    Figures 10 t (t.map digitValue) := by
  induction t with
  | nil => exact absurd rfl hne
  | cons c rest ih =>
    obtain ⟨hc, hrest⟩ := List.forall_mem_cons.mp h
    cases rest with
    | nil => exact .last (digit_of_isDigit hc)
    | cons d rest => exact .next (digit_of_isDigit hc) (ih (List.cons_ne_nil d rest) hrest)

/-- Figures stand for one list of digits. -/
theorem Figures.unique (hbase : base ≤ 16) (h : Figures base t vs) (h' : Figures base t vs') :
    vs = vs' := by
  have hvalues : ∀ {l : Text} {vs}, List.Forall₂ (Digit base) l vs →
      l.map figure? = vs.map some := by
    intro l vs hdigits
    induction hdigits with
    | nil => rfl
    | cons hd _ ih => rw [List.map_cons, List.map_cons, hd.figure? hbase, ih]
  exact List.map_injective_iff.mpr (Option.some_injective Nat)
    ((hvalues (h.digits hbase)).symm.trans (hvalues (h'.digits hbase)))

/-- Digits alone are read as the number that they write, unless there are too many. -/
theorem read_digits_iff (hne : t ≠ []) (h : ∀ c ∈ t, c.isDigit = true) {n : Int} :
    read 10 t = .ok n ↔ t.length ≤ decimalLimit ∧ n = valueOf 10 (t.map digitValue) := by
  have hfigures := figures_of_isDigit hne h
  have hunspaced : Unspaced t := fun c hc =>
    have hlegible := hfigures.legible (by decide) c hc
    ⟨Nat.lt_succ_of_lt hlegible.ascii, hlegible.unspaced⟩
  have hsign : ∀ c ∈ t.head?, c ≠ '+' ∧ c ≠ '-' := fun c hc =>
    have hdigit := digit_of_isDigit (h c (List.mem_of_mem_head? hc))
    ⟨hdigit.ne (by decide) rfl, hdigit.ne (by decide) rfl⟩
  rw [read_iff hunspaced hsign (by decide)]
  constructor
  · rintro ⟨vs, hm, hlimit, rfl⟩
    have hvs : vs = t.map digitValue := by
      cases hm with
      | plain hf => exact hf.unique (by decide) hfigures
      | repeated hm _ => exact absurd (base_of_mem_marks hm) (by decide)
      | parted hm _ => exact absurd (base_of_mem_marks hm) (by decide)
    subst hvs
    exact ⟨by simpa using hlimit rfl, rfl⟩
  · rintro ⟨hlimit, rfl⟩
    exact ⟨_, .plain hfigures, fun _ => by simpa using hlimit, rfl⟩

end Numeral

namespace Extender

variable {m m' : Marks} {c : Char} {t u : Text}

/-- The characters that extenders are made of. -/
def alphabet : Text := "cls0123456789".toList

/-- The digits of a text, wherever they are. -/
def digits (t : Text) : Text := t.filter Char.isDigit

/-! ## Characters -/

/-- What the characters of ASCII are to an extender. -/
theorem ascii_cases (hc : c.toNat < 128) :
    isDigitLike c = c.isDigit ∧ (isFlag c = true → c.isDigit = false) ∧
      (c ∈ alphabet ↔ isFlag c = true ∨ c.isDigit = true) := by
  have hall : ∀ n < 128, isDigitLike (Char.ofNat n) = (Char.ofNat n).isDigit ∧
      (isFlag (Char.ofNat n) = true → (Char.ofNat n).isDigit = false) ∧
      (Char.ofNat n ∈ alphabet ↔
        isFlag (Char.ofNat n) = true ∨ (Char.ofNat n).isDigit = true) := by decide
  simpa only [Char.ofNat_toNat] using hall c.toNat hc

/-! ## Marks -/

/-- A text comes behind the marks read so far: its digits after the others, its flags to the
others. -/
structure Marks.Gains (m m' : Marks) (t : Text) : Prop where
  digits : m'.digits = m.digits ++ Extender.digits t
  flags : ∀ c, c ∈ m'.flags ↔ c ∈ m.flags ∨ c ∈ t ∧ isFlag c = true

theorem Marks.Gains.nil (m : Marks) : m.Gains m [] :=
  ⟨(List.append_nil _).symm, fun c => by simp⟩

/-- A character and then the rest. -/
theorem Marks.Gains.cons {m₁ : Marks} (h : m.Gains m₁ [c]) (hrest : m₁.Gains m' t) :
    m.Gains m' (c :: t) := by
  refine ⟨?_, fun d => ?_⟩
  · rw [hrest.digits, h.digits, List.append_assoc, Extender.digits, Extender.digits,
      Extender.digits, ← List.filter_append, List.singleton_append]
  · simp only [hrest.flags, h.flags, List.mem_cons, List.not_mem_nil, or_false, or_and_right,
      or_assoc]

theorem add?_of_mem (hc : c.toNat < 128) (hm : c ∈ alphabet) :
    ∃ m', m.add? c = some m' ∧ m.Gains m' [c] := by
  obtain ⟨hlike, hapart, halphabet⟩ := ascii_cases hc
  cases hflag : isFlag c with
  | true =>
    refine ⟨_, if_pos hflag, ?_, fun d => ?_⟩
    · simp [digits, hapart hflag]
    · simp only [List.mem_insert_iff, List.mem_singleton]
      constructor
      · rintro (rfl | hd)
        · exact .inr ⟨rfl, hflag⟩
        · exact .inl hd
      · rintro (hd | ⟨rfl, -⟩)
        · exact .inr hd
        · exact .inl rfl
  | false =>
    have hdigit : c.isDigit = true := by simpa [hflag] using halphabet.mp hm
    have hnot : ¬ isFlag c = true := by simp [hflag]
    refine ⟨_, (if_neg hnot).trans (if_pos (hlike.trans hdigit)), ?_, fun d => ?_⟩
    · simp [digits, hdigit]
    · simp only [List.mem_singleton]
      refine (or_iff_left ?_).symm
      rintro ⟨rfl, hd⟩
      exact hnot hd

theorem add?_of_not_mem (hc : c.toNat < 128) (hm : c ∉ alphabet) : m.add? c = none := by
  obtain ⟨hlike, -, halphabet⟩ := ascii_cases hc
  obtain ⟨hflag, hdigit⟩ := not_or.mp (mt halphabet.mpr hm)
  rw [Marks.add?, if_neg hflag, if_neg (hlike ▸ hdigit)]

theorem scan_of_mem (ht : ∀ c ∈ t, c.toNat < 128) (hm : ∀ c ∈ t, c ∈ alphabet) :
    ∃ m', scan m t = .ok m' ∧ m.Gains m' t := by
  induction t generalizing m with
  | nil => exact ⟨m, rfl, .nil m⟩
  | cons c rest ih =>
    obtain ⟨hc, hrest⟩ := List.forall_mem_cons.mp ht
    obtain ⟨hcm, hrestm⟩ := List.forall_mem_cons.mp hm
    obtain ⟨m₁, hadd, hgain⟩ := add?_of_mem (m := m) hc hcm
    obtain ⟨m', hscan, hgains⟩ := ih (m := m₁) hrest hrestm
    exact ⟨m', by rw [scan, hadd]; exact hscan, hgain.cons hgains⟩

/-- A character that is none of these ends the reading. -/
theorem mem_of_scan (ht : ∀ c ∈ t, c.toNat < 128) (h : scan m t = .ok m') :
    ∀ c ∈ t, c ∈ alphabet := by
  induction t generalizing m with
  | nil => nofun
  | cons c rest ih =>
    obtain ⟨hc, hrest⟩ := List.forall_mem_cons.mp ht
    rw [scan] at h
    cases hadd : m.add? c with
    | none =>
      rw [hadd] at h
      cases h
    | some m₁ =>
      rw [hadd] at h
      refine List.forall_mem_cons.mpr ⟨?_, ih hrest h⟩
      by_contra hm
      rw [add?_of_not_mem hc hm] at hadd
      cases hadd

theorem count_eq_ok_iff (h : ∀ c ∈ m.digits, c.isDigit = true) {n : Nat} :
    m.count = .ok n ↔ m.digits.length ≤ Numeral.decimalLimit ∧
      n = Numeral.valueOf 10 (m.digits.map Numeral.digitValue) := by
  unfold Marks.count
  cases hdigits : m.digits with
  | nil => simp [Numeral.valueOf, eq_comm]
  | cons c rest =>
    have hread := fun n => Numeral.read_digits_iff (n := n) (List.cons_ne_nil c rest)
      (hdigits ▸ h)
    simp only [map_eq_ok_iff, hread]
    constructor
    · rintro ⟨_, ⟨hlimit, rfl⟩, rfl⟩
      exact ⟨hlimit, Int.toNat_natCast _⟩
    · rintro ⟨hlimit, rfl⟩
      exact ⟨_, ⟨hlimit, rfl⟩, Int.toNat_natCast _⟩

/-! ## Extenders -/

/-- The extender that the digits and the letters of a text make. -/
def ofText (t : Text) : Extender :=
  ⟨Numeral.valueOf 10 ((digits t).map Numeral.digitValue), 'c' ∈ t, 'l' ∈ t, 's' ∈ t⟩

theorem parse_eq_ok_iff (ht : ∀ c ∈ t, c.toNat < 128) {x : Extender} :
    parse t = .ok x ↔
      (∀ c ∈ t, c ∈ alphabet) ∧ (digits t).length ≤ Numeral.decimalLimit ∧ x = ofText t := by
  by_cases hm : ∀ c ∈ t, c ∈ alphabet
  · obtain ⟨m, hscan, hgains⟩ := scan_of_mem (m := .none) ht hm
    have hdigits : m.digits = digits t := hgains.digits
    have hflag : ∀ c, isFlag c = true → m.flags.contains c = decide (c ∈ t) := by
      intro c hc
      rw [List.contains_eq_mem, decide_eq_decide, hgains.flags]
      simp [Marks.none, hc]
    have hcount := fun n => count_eq_ok_iff (m := m) (n := n)
      (fun c hc => (List.mem_filter.mp (hdigits ▸ hc)).2)
    simp only [parse, hscan, map_eq_ok_iff, hcount, hflag 'c' rfl, hflag 'l' rfl, hflag 's' rfl,
      hdigits]
    constructor
    · rintro ⟨_, ⟨hlimit, rfl⟩, rfl⟩
      exact ⟨hm, hlimit, rfl⟩
    · rintro ⟨-, hlimit, rfl⟩
      exact ⟨_, ⟨hlimit, rfl⟩, rfl⟩
  · refine iff_of_false (fun h => hm ?_) fun h => hm h.1
    rw [parse] at h
    cases hscan : scan .none t with
    | error c =>
      rw [hscan] at h
      cases h
    | ok m => exact mem_of_scan ht hscan

/-- Letters may be moved and repeated. -/
theorem sameResult_parse (ht : ∀ c ∈ t, c.toNat < 128) (hu : ∀ c ∈ u, c.toNat < 128)
    (hdigits : digits u = digits t) (hletters : ∀ c, c.isDigit = false → (c ∈ u ↔ c ∈ t)) :
    SameResult (parse u) (parse t) := by
  have halphabet : ∀ {t u : Text}, (∀ c ∈ u, c.toNat < 128) →
      (∀ c, c.isDigit = false → (c ∈ u ↔ c ∈ t)) → (∀ c ∈ t, c ∈ alphabet) →
      ∀ c ∈ u, c ∈ alphabet := by
    intro t u hu hletters hm c hc
    cases hdigit : c.isDigit with
    | true => exact (ascii_cases (hu c hc)).2.2.mpr (.inr hdigit)
    | false => exact hm c ((hletters c hdigit).mp hc)
  have hmade : ofText u = ofText t := by
    rw [ofText, ofText, hdigits]
    simp only [hletters 'c' rfl, hletters 'l' rfl, hletters 's' rfl]
  intro x
  rw [parse_eq_ok_iff hu, parse_eq_ok_iff ht, hdigits, hmade]
  exact and_congr_left' ⟨halphabet ht fun c hc => (hletters c hc).symm, halphabet hu hletters⟩

end Extender

namespace RuleText

variable {t u : Text}

/-- The type of regex tests with an extender. -/
def regexType (t : Text) : Text := "regex/".toList ++ t

variable [RegexEngine]

theorem readTest_regexType (offset : Offset) (t valueText : Text) :
    readTest offset (regexType t) valueText = (do
      let (o, value) ← readTestValue valueText
      .regex <$> RegexTest.make offset o (value.getD []) t) := by
  have htype : readType (regexType t) = .ok ⟨.regex, true, .native, t⟩ := rfl
  rw [readTest, htype]
  rfl

theorem sameResult_make (h : SameResult (Extender.parse u) (Extender.parse t)) (offset : Offset)
    (o : Operator) (source : Text) :
    SameResult (RegexTest.make offset o source u) (RegexTest.make offset o source t) :=
  h.bind fun _ => .refl _

theorem sameResult_readTest (h : SameResult (Extender.parse u) (Extender.parse t))
    (offset : Offset) (valueText : Text) :
    SameResult (readTest offset (regexType u) valueText)
      (readTest offset (regexType t) valueText) := by
  rw [readTest_regexType, readTest_regexType]
  exact SameResult.bind (.refl _) fun _ => (sameResult_make h _ _ _).map _

end RuleText

namespace Extender
open RuleText

/-- An extender is accepted for its characters and the number of its digits. It says what its digits
write and which letters it has, so that all with the same digits in a row and the same letters make
the same tests. -/
theorem parse_forgets_order [RegexEngine] (t : Text) (ht : ∀ c ∈ t, c.toNat < 128) :
    ((∃ x, parse t = .ok x) ↔
      (∀ c ∈ t, c ∈ "cls0123456789".toList) ∧ (t.filter Char.isDigit).length ≤ 4300) ∧
    (∀ x, parse t = .ok x →
      x.count = Numeral.valueOf 10 ((t.filter Char.isDigit).map fun c => c.toNat - 48) ∧
      (x.fold = true ↔ 'c' ∈ t) ∧ (x.lines = true ↔ 'l' ∈ t) ∧ (x.fromStart = true ↔ 's' ∈ t)) ∧
    ∀ u : Text, (∀ c ∈ u, c.toNat < 128) → u.filter Char.isDigit = t.filter Char.isDigit →
      (∀ c, c.isDigit = false → (c ∈ u ↔ c ∈ t)) →
      (∀ x, parse u = .ok x ↔ parse t = .ok x) ∧
      (∀ offset o source test, RegexTest.make offset o source t = .ok test →
        ∃ test', RegexTest.make offset o source u = .ok test' ∧ ∀ s template,
          (Test.regex test').evaluate s template = (Test.regex test).evaluate s template) ∧
      ∀ offset value test, readTest offset ("regex/".toList ++ t) value = .ok test →
        ∃ test', readTest offset ("regex/".toList ++ u) value = .ok test' ∧ ∀ s template,
          test'.evaluate s template = test.evaluate s template := by
  refine ⟨?_, fun x hx => ?_, fun u hu hdigits hletters => ⟨?_, ?_, ?_⟩⟩
  · simp only [parse_eq_ok_iff ht]
    exact ⟨fun ⟨_, hm, hlimit, _⟩ => ⟨hm, hlimit⟩, fun ⟨hm, hlimit⟩ => ⟨_, hm, hlimit, rfl⟩⟩
  · obtain ⟨-, -, rfl⟩ := (parse_eq_ok_iff ht).mp hx
    simp only [ofText, decide_eq_true_eq, iff_self, and_true]
    rfl
  · exact sameResult_parse ht hu hdigits hletters
  · intro offset o source test htest
    have hsame := sameResult_make (sameResult_parse ht hu hdigits hletters) offset o source
    exact ⟨test, (hsame test).mpr htest, fun _ _ => rfl⟩
  · intro offset value test htest
    have hsame := sameResult_readTest (sameResult_parse ht hu hdigits hletters) offset value
    exact ⟨test, (hsame test).mpr htest, fun _ _ => rfl⟩

/-- Letters between the digits, and letters twice: twelve octets to look in, for letters of either
case, and a message that starts where the match does. -/
theorem parse_forgets_order_interleaved :
    ∃ (t u : Text) (s : Stream) (test : Test), t = "1s2c".toList ∧ u = "csc12s".toList ∧
      parse t = .ok ⟨12, true, false, true⟩ ∧ parse u = .ok ⟨12, true, false, true⟩ ∧
      readTest (.fixed 1) ("regex/".toList ++ u) "b+".toList = .ok test ∧
      test.evaluate s "%s".toList = .ok (some "BBcdefghijklm".toList) := by
  let t : Text := "1s2c".toList
  let u : Text := "csc12s".toList
  let s : Stream := .ofBytes (Text.utf8 "aaBBcdefghijklm".toList)
  have hparse : parse t = .ok ⟨12, true, false, true⟩ := rfl
  have ht : ∀ c ∈ t, c.toNat < 128 := by simp [t]
  have hu : ∀ c ∈ u, c.toNat < 128 := by simp [u]
  have hletters : ∀ c, c.isDigit = false → (c ∈ u ↔ c ∈ t) := by
    have hut : u.all (fun c => c.isDigit || t.contains c) = true := by decide
    have htu : t.all (fun c => c.isDigit || u.contains c) = true := by decide
    intro c hc
    constructor
    · intro hmem
      simpa [hc] using List.all_eq_true.mp hut c hmem
    · intro hmem
      simpa [hc] using List.all_eq_true.mp htu c hmem
  obtain ⟨-, -, hforget⟩ := parse_forgets_order t ht
  obtain ⟨hsame, -, htest⟩ := hforget u hu rfl hletters
  obtain ⟨test, htest, hevaluate⟩ := htest (.fixed 1) "b+".toList _ rfl
  exact ⟨t, u, s, test, rfl, rfl, hparse, (hsame _).mpr hparse, htest,
    (hevaluate s "%s".toList).trans rfl⟩

end Extender
end FileMagic
