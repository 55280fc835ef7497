import FileMagic.Proofs.Except
import FileMagic.Proofs.Figures
import FileMagic.Text.Number
import Mathlib.Data.List.TakeWhile

/-! # The literals of integers

A literal is a sign, an announcement of a base, and figures of this base, which may repeat its mark
(`Spells`). The reader accepts this language and no other text, and gives the positional value of
the digits with the sign (`parse_iff_spells`). It drops a repeated mark, which is to read the
grammar from the left (`marked_iff`) since no mark is a digit of its own base. What it reads in a
base may be padded and may be written in any script, but a text of ASCII characters without blanks
counts as itself (`marked_map_plain_iff`). -/

namespace FileMagic.Numeral

/-! ## The grammar -/

/-- The letters that mark a base behind a zero. -/
def marks : List (Char × Nat) := [('x', 16), ('X', 16), ('b', 2), ('B', 2), ('o', 8), ('O', 8)]

/-- Figures that may repeat the mark of their base, with an underscore behind it or without. -/
inductive Marked (base : Nat) : Text → List Nat → Prop
  | plain {t : Text} {vs : List Nat} : Figures base t vs → Marked base t vs
  | repeated {m : Char} {t : Text} {vs : List Nat} :
    (m, base) ∈ marks → Figures base t vs → Marked base ('0' :: m :: t) vs
  | parted {m : Char} {t : Text} {vs : List Nat} :
    (m, base) ∈ marks → Figures base t vs → Marked base ('0' :: m :: '_' :: t) vs

/-- Literals without a sign, their base and their digits. A zero alone is decimal, and before
figures it announces octal ones; these begin with a digit, so that it is not part of a mark. -/
inductive Unsigned : Text → Nat → List Nat → Prop
  | marked {m : Char} {base : Nat} {t : Text} {vs : List Nat} :
    (m, base) ∈ marks → Marked base t vs → Unsigned ('0' :: m :: t) base vs
  | octal {t : Text} {vs : List Nat} : Marked 8 t vs → Unsigned ('0' :: t) 8 vs
  | decimal {t : Text} {vs : List Nat} : Figures 10 t vs → t = ['0'] ∨ t.head? ≠ some '0' →
    vs.length ≤ 4300 → Unsigned t 10 vs

/-- The literal of an integer. -/
inductive Spells : Text → Int → Prop
  | unsigned {t : Text} {base : Nat} {vs : List Nat} :
    Unsigned t base vs → Spells t (valueOf base vs)
  | plus {t : Text} {base : Nat} {vs : List Nat} :
    Unsigned t base vs → Spells ('+' :: t) (valueOf base vs)
  | minus {t : Text} {base : Nat} {vs : List Nat} :
    Unsigned t base vs → Spells ('-' :: t) (-(valueOf base vs : Nat))

/-- The faults that reading a text as an integer can have: no digits where they should start,
anything but digits among them, or too many decimal ones. -/
inductive Refused (text : Text) : Fault → Prop
  | literal : Refused text (.integerLiteral text)
  | numeral {base : Nat} {figures : Text} :
    base ∈ [2, 8, 10, 16] → figures <:+ text → Refused text (.numeral base figures)
  | tooLong {digits : Nat} : decimalLimit < digits → Refused text (.numeralTooLong digits)

variable {base : Nat} {c : Char} {v : Nat} {t : Text} {vs : List Nat}

/-! ## Marks -/

theorem baseMark?_eq_some_iff {m : Char} : baseMark? m = some base ↔ (m, base) ∈ marks := by
  unfold baseMark? marks
  split <;> simp_all [eq_comm]

theorem base_of_mem_marks {m : Char} (h : (m, base) ∈ marks) : base = 2 ∨ base = 8 ∨ base = 16 := by
  simp only [marks, List.mem_cons, List.not_mem_nil, Prod.mk.injEq, or_false] at h
  omega

/-- No mark is a digit of its own base. -/
theorem not_belongs_mark {m : Char} (h : (m, base) ∈ marks) : belongs base m = false := by
  have hall : ∀ mark ∈ marks, belongs mark.2 mark.1 = false := by decide
  exact hall _ h

theorem Figures.dropMark (h : Figures base t vs) (hbase : base ≤ 16) : dropMark base t = t := by
  unfold Numeral.dropMark
  split
  · next m rest =>
    split
    · next hm =>
      have hno := not_belongs_mark (baseMark?_eq_some_iff.mp hm)
      rw [h.belongs hbase m (by simp)] at hno
      cases hno
    · rfl
  · rfl

theorem marked_iff (hbase : base ≤ 16) : Marked base t vs ↔ Figures base (dropMark base t) vs := by
  constructor
  · intro h
    cases h with
    | plain h => rwa [h.dropMark hbase]
    | @repeated m t _ hm h =>
      -- figures do not start with an underscore, so that none is dropped with the mark
      have hapart : ∀ figures, t ≠ '_' :: figures := by
        rintro figures rfl
        exact absurd (h.separatedFrom hbase true) (by simp [separatedFrom])
      simpa [dropMark, baseMark?_eq_some_iff.mpr hm, hapart] using h
    | parted hm h => simpa [dropMark, baseMark?_eq_some_iff.mpr hm] using h
  · intro h
    unfold dropMark at h
    split at h
    · next m rest =>
      split at h
      · next hm =>
        split at h
        · exact .parted (baseMark?_eq_some_iff.mp hm) h
        · exact .repeated (baseMark?_eq_some_iff.mp hm) h
      · exact .plain h
    · exact .plain h

theorem Marked.base_pos (h : Marked base t vs) : 0 < base := by
  have hfigures : ∀ {t vs}, Figures base t vs → 0 < base := by
    rintro t vs (hd | ⟨hd, -⟩ | ⟨hd, -⟩) <;> exact Nat.zero_lt_of_lt hd.1
  cases h with
  | plain h => exact hfigures h
  | repeated _ h => exact hfigures h
  | parted _ h => exact hfigures h

/-- Figures start with a digit, also when the mark of their base is repeated. -/
theorem Marked.exists_cons (h : Marked base t vs) : ∃ c rest v, t = c :: rest ∧ Digit base c v := by
  have hzero := zero_digit h.base_pos
  cases h with
  | plain h =>
    cases h with
    | last hd => exact ⟨_, _, _, rfl, hd⟩
    | next hd _ => exact ⟨_, _, _, rfl, hd⟩
    | apart hd _ => exact ⟨_, _, _, rfl, hd⟩
  | repeated _ _ => exact ⟨_, _, _, rfl, hzero⟩
  | parted _ _ => exact ⟨_, _, _, rfl, hzero⟩

/-! ## Characters -/

/-- ASCII characters, none of them a blank. -/
def Unspaced (t : Text) : Prop := ∀ c ∈ t, c.toNat < 128 ∧ isAsciiSpace c = false

instance : Decidable (Unspaced t) :=
  List.decidableBAll (fun c : Char => c.toNat < 128 ∧ isAsciiSpace c = false) t

/-- What a character of a literal is: one that its reader leaves as it is. -/
structure Legible (c : Char) : Prop where
  ascii : c.toNat < 127
  unspaced : isAsciiSpace c = false
  /-- The character that stands for all that no literal contains. -/
  ne_unknown : c ≠ '?'

instance : Decidable (Legible c) :=
  decidable_of_iff (c.toNat < 127 ∧ isAsciiSpace c = false ∧ c ≠ '?')
    ⟨fun h => ⟨h.1, h.2.1, h.2.2⟩, fun h => ⟨h.ascii, h.unspaced, h.ne_unknown⟩⟩

theorem legible_of_belongs (h : belongs base c = true) : Legible c := by
  have hdigit : ∀ v < 16, Legible v.digitChar ∧ Legible v.digitChar.toUpper := by decide
  simp only [belongs, isFigure, Bool.or_eq_true, decide_eq_true_eq] at h
  obtain h | rfl := h
  · split at h
    · next v hv =>
      obtain ⟨hlt, rfl | rfl⟩ := figure?_eq_some_iff.mp hv
      · exact (hdigit v hlt).1
      · exact (hdigit v hlt).2
    · cases h
  · decide

theorem legible_zero : Legible '0' := by decide

theorem legible_mark {m : Char} (h : (m, base) ∈ marks) : Legible m := by
  have hall : ∀ mark ∈ marks, Legible mark.1 := by decide
  exact hall _ h

theorem Figures.legible (h : Figures base t vs) (hbase : base ≤ 16) : ∀ c ∈ t, Legible c :=
  fun c hc => legible_of_belongs (h.belongs hbase c hc)

theorem Marked.legible (h : Marked base t vs) (hbase : base ≤ 16) : ∀ c ∈ t, Legible c := by
  have hunder : Legible '_' :=
    legible_of_belongs (show belongs base '_' = true by simp [belongs])
  cases h with
  | plain h => exact h.legible hbase
  | repeated hm h => simpa [legible_zero, legible_mark hm] using h.legible hbase
  | parted hm h => simpa [legible_zero, legible_mark hm, hunder] using h.legible hbase

theorem Legible.plain (h : Legible c) : plain c = c := if_pos h.ascii

/-- An ASCII character counts as itself, or as one that no literal contains. -/
theorem plain_of_ascii (hc : c.toNat < 128) : plain c = c ∨ plain c = '?' := by
  by_cases hdel : c.toNat < 127
  · exact .inl (if_pos hdel)
  · have hc : c = '\x7f' := Char.toNat_inj.mp (show c.toNat = 127 by omega)
    rw [hc]
    exact .inr (by decide)

theorem unspaced_map_plain (h : Unspaced t) : Unspaced (t.map plain) := by
  intro d hd
  obtain ⟨c, hc, rfl⟩ := List.mem_map.mp hd
  obtain hplain | hplain := plain_of_ascii (h c hc).1 <;> rw [hplain]
  · exact h c hc
  · decide

theorem marked_map_plain_iff (h : Unspaced t) (hbase : base ≤ 16) :
    Marked base (t.map plain) vs ↔ Marked base t vs := by
  have hsame (hall : ∀ c ∈ t, plain c = c) : t.map plain = t := by
    rw [List.map_congr_left hall, List.map_id']
  constructor
  · intro hm
    have hknown : ∀ c ∈ t, plain c ≠ '?' := fun c hc =>
      (hm.legible hbase _ (List.mem_map_of_mem hc)).ne_unknown
    rwa [hsame fun c hc => (plain_of_ascii (h c hc).1).resolve_right (hknown c hc)] at hm
  · intro hm
    rwa [hsame fun c hc => (hm.legible hbase c hc).plain]

/-! ## Reading -/

theorem splitSign_map_plain (h : Unspaced t) (hsign : ∀ c ∈ t.head?, c ≠ '+' ∧ c ≠ '-') :
    splitSign (t.map plain) = (false, t.map plain) := by
  refine splitSign_eq fun d hd => ?_
  rw [List.head?_map] at hd
  obtain ⟨c, hc, rfl⟩ := Option.mem_map.mp hd
  obtain hplain | hplain := plain_of_ascii (h c (List.mem_of_mem_head? hc)).1 <;> rw [hplain]
  · exact hsign c hc
  · decide

theorem dropWhile_unspaced (h : Unspaced t) : t.dropWhile isAsciiSpace = t := by
  cases t with
  | nil => rfl
  | cons c rest => exact List.dropWhile_cons_of_neg (by simp [(h c List.mem_cons_self).2])

theorem dropMark_suffix : dropMark base t <:+ t := by
  unfold dropMark
  split
  · next m rest =>
    split
    · split
      · exact ⟨['0', m, '_'], rfl⟩
      · exact ⟨['0', m], rfl⟩
    · exact List.suffix_refl _
  · exact List.suffix_refl _

/-- Only blanks may follow the figures, so that without blanks there are figures alone. -/
theorem all_dropWhile_iff (h : Unspaced t) :
    (t.dropWhile (belongs base)).all isAsciiSpace = true ↔ ∀ c ∈ t, belongs base c = true := by
  rw [← List.dropWhile_eq_nil_iff]
  constructor
  · intro hall
    refine List.eq_nil_iff_forall_not_mem.mpr fun c hc => ?_
    have hspace := List.all_eq_true.mp hall c hc
    rw [(h c ((List.dropWhile_sublist _).subset hc)).2] at hspace
    cases hspace
  · intro hnil
    rw [hnil]
    rfl

/-- What is read is the value of a run of figures, with nothing but blanks behind it. -/
theorem read_eq_ok_iff {figures rest run digits : Text} {negative : Bool} {n : Int}
    (hsplit : splitSign ((t.map plain).dropWhile isAsciiSpace) = (negative, rest))
    (hfigures : dropMark base rest = figures) (hrun : figures.takeWhile (belongs base) = run)
    (hdigits : run.filter (· ≠ '_') = digits) :
    read base t = .ok n ↔
      separated run = true ∧ (base = 10 → digits.length ≤ decimalLimit) ∧
        (figures.dropWhile (belongs base)).all isAsciiSpace = true ∧
        n = if negative then -(positional base digits : Int) else positional base digits := by
  unfold read
  rw [hsplit]
  simp only [hfigures, hrun, hdigits]
  constructor
  · intro h
    split at h
    · cases h
    · next hseparated =>
      split at h
      · cases h
      · next hlimit =>
        split at h
        · cases h
        · next hrest =>
          exact ⟨by simpa using hseparated,
            fun hten => Nat.not_lt.mp fun hlong => hlimit ⟨hten, hlong⟩, by simpa using hrest,
            (Except.ok.inj h).symm⟩
  · rintro ⟨hseparated, hlimit, hrest, rfl⟩
    have hshort : ¬(base = 10 ∧ decimalLimit < digits.length) := fun hlong =>
      Nat.not_lt.mpr (hlimit hlong.1) hlong.2
    rw [hseparated, hrest, if_neg hshort]
    rfl

theorem read_fault {f : Fault} (h : read base t = .error f) :
    f = .numeral base t ∨ ∃ digits, decimalLimit < digits ∧ f = .numeralTooLong digits := by
  unfold read at h
  simp only at h
  split at h
  · cases h
    exact .inl rfl
  · split at h
    · next hlong =>
      cases h
      exact .inr ⟨_, hlong.2, rfl⟩
    · split at h
      · cases h
        exact .inl rfl
      · cases h

theorem read_iff (h : Unspaced t) (hsign : ∀ c ∈ t.head?, c ≠ '+' ∧ c ≠ '-') (hbase : base ≤ 16)
    {n : Int} :
    read base t = .ok n ↔
      ∃ vs, Marked base t vs ∧ (base = 10 → vs.length ≤ decimalLimit) ∧ n = valueOf base vs := by
  have hplain := unspaced_map_plain h
  have hspace : Unspaced (dropMark base (t.map plain)) :=
    fun c hc => hplain c (dropMark_suffix.subset hc)
  have hsplit : splitSign ((t.map plain).dropWhile isAsciiSpace) = (false, t.map plain) := by
    rw [dropWhile_unspaced hplain, splitSign_map_plain h hsign]
  rw [read_eq_ok_iff hsplit rfl rfl rfl]
  simp only [← marked_map_plain_iff h hbase, marked_iff hbase]
  generalize dropMark base (t.map plain) = figures at hspace ⊢
  constructor
  · rintro ⟨hseparated, hlimit, hrest, rfl⟩
    have hall := (all_dropWhile_iff hspace).mp hrest
    rw [List.takeWhile_eq_self_iff.mpr hall] at hseparated hlimit ⊢
    obtain ⟨vs, hvs⟩ := (figures_iff hbase).mpr ⟨hall, hseparated⟩
    have hdigits := hvs.digits hbase
    exact ⟨vs, hvs, fun hten => hdigits.length_eq ▸ hlimit hten,
      congrArg Nat.cast (positional_eq hdigits hbase)⟩
  · rintro ⟨vs, hvs, hlimit, rfl⟩
    have hall := hvs.belongs hbase
    have hdigits := hvs.digits hbase
    rw [List.takeWhile_eq_self_iff.mpr hall, hdigits.length_eq, positional_eq hdigits hbase]
    exact ⟨hvs.separatedFrom hbase true, hlimit, (all_dropWhile_iff hspace).mpr hall, rfl⟩

/-! ## Announcements -/

/-- A mark behind a zero announces its base, a zero before anything else an octal number, and what
is left is decimal. -/
theorem announced_cases (t : Text) :
    (∃ m base rest, t = '0' :: m :: rest ∧ (m, base) ∈ marks ∧ announced t = (base, rest)) ∨
      (∃ rest, t = '0' :: rest ∧ announced t = (8, rest)) ∨
      ((t = ['0'] ∨ t.head? ≠ some '0') ∧ announced t = (10, t)) := by
  unfold announced
  split
  · exact .inr (.inr ⟨.inl rfl, rfl⟩)
  · next m rest =>
    split
    · next base hm => exact .inl ⟨m, base, rest, rfl, baseMark?_eq_some_iff.mp hm, rfl⟩
    · exact .inr (.inl ⟨m :: rest, rfl, rfl⟩)
  · next hzero hmore =>
    refine .inr (.inr ⟨.inr fun hhead => ?_, rfl⟩)
    obtain ⟨rest, rfl⟩ := List.head?_eq_some_iff.mp hhead
    cases rest with
    | nil => exact hzero rfl
    | cons m rest => exact hmore m rest rfl

theorem announced_base (t : Text) : (announced t).1 ∈ [2, 8, 10, 16] := by
  obtain ⟨m, base, rest, -, hm, h⟩ | ⟨rest, -, h⟩ | ⟨-, h⟩ := announced_cases t <;> rw [h]
  · obtain rfl | rfl | rfl := base_of_mem_marks hm <;> simp
  · simp
  · simp

theorem announced_suffix (t : Text) : (announced t).2 <:+ t := by
  obtain ⟨m, base, rest, ht, -, h⟩ | ⟨rest, ht, h⟩ | ⟨-, h⟩ := announced_cases t
  · exact ⟨['0', m], by rw [h, ht]; rfl⟩
  · exact ⟨['0'], by rw [h, ht]; rfl⟩
  · rw [h]

/-- The figures of an octal number do not start with a mark. -/
theorem announced_octal (h : Marked 8 t vs) : announced ('0' :: t) = (8, t) := by
  have hdigit : ∀ v < 8, baseMark? v.digitChar = none ∧ baseMark? v.digitChar.toUpper = none := by
    decide
  obtain ⟨c, rest, v, rfl, hlt, rfl | rfl⟩ := h.exists_cons
  · simp [announced, (hdigit v hlt).1]
  · simp [announced, (hdigit v hlt).2]

theorem announced_decimal (h : t = ['0'] ∨ t.head? ≠ some '0') : announced t = (10, t) := by
  obtain rfl | hhead := h
  · rfl
  · obtain ⟨m, base, rest, rfl, -⟩ | ⟨rest, rfl, -⟩ | ⟨-, h⟩ := announced_cases t
    · exact absurd rfl hhead
    · exact absurd rfl hhead
    · exact h

theorem unsigned_iff :
    Unsigned t base vs ↔ (announced t).1 = base ∧ Marked base (announced t).2 vs ∧
      (base = 10 → vs.length ≤ decimalLimit) := by
  constructor
  · intro h
    cases h with
    | @marked m _ t _ hm h =>
      have hannounced : announced ('0' :: m :: t) = (base, t) := by
        simp [announced, baseMark?_eq_some_iff.mpr hm]
      have hten : base ≠ 10 := by have := base_of_mem_marks hm; omega
      exact ⟨by rw [hannounced], by rwa [hannounced], fun hbase => absurd hbase hten⟩
    | octal h =>
      rw [announced_octal h]
      exact ⟨rfl, h, fun hten => absurd hten (by decide)⟩
    | decimal h hzero hlimit =>
      rw [announced_decimal hzero]
      exact ⟨rfl, .plain h, fun _ => hlimit⟩
  · rintro ⟨rfl, h, hlimit⟩
    obtain ⟨m, base, rest, rfl, hm, ht⟩ | ⟨rest, rfl, ht⟩ | ⟨hzero, ht⟩ := announced_cases t <;>
      rw [ht] at h hlimit ⊢
    · exact .marked hm h
    · exact .octal h
    · cases h with
      | plain h => exact .decimal h hzero (hlimit rfl)
      | repeated hm _ => exact absurd (base_of_mem_marks hm) (by simp)
      | parted hm _ => exact absurd (base_of_mem_marks hm) (by simp)

theorem Unsigned.head (h : Unsigned t base vs) : ∀ c ∈ t.head?, c ≠ '+' ∧ c ≠ '-' := by
  have hdigit : ∀ {t base vs}, Marked base t vs → base ≤ 16 →
      ∀ c ∈ t.head?, c ≠ '+' ∧ c ≠ '-' := by
    intro t base vs h hbase c hc
    obtain ⟨d, rest, v, rfl, hd⟩ := h.exists_cons
    obtain rfl : d = c := by simpa using hc
    exact ⟨hd.ne hbase rfl, hd.ne hbase rfl⟩
  cases h with
  | marked _ _ => simp
  | octal _ => simp
  | decimal h _ _ => exact hdigit (.plain h) (by decide)

theorem Unsigned.legible (h : Unsigned t base vs) : ∀ c ∈ t, Legible c := by
  cases h with
  | marked hm h =>
    have hbase : base ≤ 16 := by have := base_of_mem_marks hm; omega
    simpa [legible_zero, legible_mark hm] using h.legible hbase
  | octal h => simpa [legible_zero] using h.legible (by decide)
  | decimal h _ _ => exact h.legible (by decide)

/-! ## Literals -/

theorem splitSign_cases (t : Text) :
    (∃ rest, t = '+' :: rest ∧ splitSign t = (false, rest)) ∨
      (∃ rest, t = '-' :: rest ∧ splitSign t = (true, rest)) ∨ splitSign t = (false, t) := by
  unfold splitSign
  split
  · exact .inl ⟨_, rfl, rfl⟩
  · exact .inr (.inl ⟨_, rfl, rfl⟩)
  · exact .inr (.inr rfl)

theorem splitSign_suffix (t : Text) : (splitSign t).2 <:+ t := by
  obtain ⟨rest, rfl, h⟩ | ⟨rest, rfl, h⟩ | h := splitSign_cases t <;> rw [h]
  · exact List.suffix_cons _ _
  · exact List.suffix_cons _ _

theorem spells_iff {w : Text} {n : Int} :
    Spells w n ↔ ∃ base vs, Unsigned (splitSign w).2 base vs ∧
      n = if (splitSign w).1 then -(valueOf base vs : Int) else valueOf base vs := by
  constructor
  · intro h
    cases h with
    | unsigned h =>
      rw [splitSign_eq h.head]
      exact ⟨_, _, h, rfl⟩
    | plus h => exact ⟨_, _, h, rfl⟩
    | minus h => exact ⟨_, _, h, rfl⟩
  · rintro ⟨base, vs, h, rfl⟩
    obtain ⟨rest, rfl, hw⟩ | ⟨rest, rfl, hw⟩ | hw := splitSign_cases w <;> rw [hw] at h ⊢
    · exact .plus h
    · exact .minus h
    · exact .unsigned h

theorem Spells.unspaced {w : Text} {n : Int} (h : Spells w n) : Unspaced w := by
  have hlegible : ∀ c ∈ w, c = '+' ∨ c = '-' ∨ Legible c := by
    cases h with
    | unsigned h => exact fun c hc => .inr (.inr (h.legible c hc))
    | plus h => simpa using fun c hc => .inr (.inr (h.legible c hc))
    | minus h => simpa using fun c hc => .inr (.inr (h.legible c hc))
  intro c hc
  obtain rfl | rfl | h := hlegible c hc
  · exact ⟨by decide, by decide⟩
  · exact ⟨by decide, by decide⟩
  · exact ⟨Nat.lt_succ_of_lt h.ascii, h.unspaced⟩

/-- A text is read in the base that it announces behind its sign, unless there is nothing to read or
another sign. -/
theorem parse_cases {w body figures : Text} {negative : Bool} (hw : splitSign w = (negative, body))
    (hbody : announced body = (base, figures)) :
    (parse w = .error (.integerLiteral w) ∧ ∀ c ∈ figures.head?, c = '+' ∨ c = '-') ∨
      (parse w = (read base figures).map (fun n => if negative then -n else n) ∧
        ∀ c ∈ figures.head?, c ≠ '+' ∧ c ≠ '-') := by
  unfold parse
  rw [hw]
  simp only
  rw [hbody]
  simp only
  split
  · exact .inl ⟨rfl, by simp⟩
  · exact .inl ⟨rfl, by simp⟩
  · exact .inl ⟨rfl, by simp⟩
  · next hplus hminus =>
    refine .inr ⟨rfl, fun c hc => ?_⟩
    obtain ⟨rest, rfl⟩ := List.head?_eq_some_iff.mp hc
    exact ⟨fun h => hplus rest (h ▸ rfl), fun h => hminus rest (h ▸ rfl)⟩

/-- What is read of a text, and in which base. -/
theorem figures_of_parts {w body figures : Text} {negative : Bool}
    (hw : splitSign w = (negative, body)) (hbody : announced body = (base, figures)) :
    base ∈ [2, 8, 10, 16] ∧ figures <:+ w := by
  have hbase := announced_base body
  have hfigures := announced_suffix body
  have hrest := splitSign_suffix w
  rw [hbody] at hbase hfigures
  rw [hw] at hrest
  exact ⟨hbase, hfigures.trans hrest⟩

theorem parse_eq_ok_iff {w : Text} (hw : Unspaced w) {n : Int} :
    parse w = .ok n ↔ Spells w n := by
  rcases hsplit : splitSign w with ⟨negative, body⟩
  rcases hbody : announced body with ⟨base, figures⟩
  obtain ⟨hbases, hsuffix⟩ := figures_of_parts hsplit hbody
  have hbase : base ≤ 16 := by
    simp only [List.mem_cons, List.not_mem_nil, or_false] at hbases
    omega
  rw [spells_iff, hsplit]
  simp only [unsigned_iff, hbody]
  obtain ⟨h, hstart⟩ | ⟨h, hstart⟩ := parse_cases hsplit hbody <;> rw [h]
  · constructor
    · intro h
      cases h
    · rintro ⟨_, vs, ⟨rfl, hm, -⟩, -⟩
      obtain ⟨c, rest, v, rfl, hd⟩ := hm.exists_cons
      obtain hsign | hsign := hstart c rfl
      · exact absurd hsign (hd.ne hbase rfl)
      · exact absurd hsign (hd.ne hbase rfl)
  · rw [map_eq_ok_iff]
    simp only [read_iff (fun c hc => hw c (hsuffix.subset hc)) hstart hbase]
    constructor
    · rintro ⟨_, ⟨vs, hm, hlimit, rfl⟩, rfl⟩
      exact ⟨base, vs, ⟨rfl, hm, hlimit⟩, rfl⟩
    · rintro ⟨_, vs, ⟨rfl, hm, hlimit⟩, rfl⟩
      exact ⟨_, ⟨vs, hm, hlimit, rfl⟩, rfl⟩

theorem refused_of_parse {w : Text} {f : Fault} (h : parse w = .error f) : Refused w f := by
  rcases hsplit : splitSign w with ⟨negative, body⟩
  rcases hbody : announced body with ⟨base, figures⟩
  obtain ⟨hparse, -⟩ | ⟨hparse, -⟩ := parse_cases hsplit hbody <;> rw [hparse] at h
  · cases h
    exact .literal
  · obtain rfl | ⟨digits, hlong, rfl⟩ := read_fault (map_eq_error_iff.mp h)
    · obtain ⟨hbase, hsuffix⟩ := figures_of_parts hsplit hbody
      exact .numeral hbase hsuffix
    · exact .tooLong hlong

/-! ## Literals without a sign -/

theorem eq_minus_of_plain (h : plain c = '-') : c = '-' := by
  have hdigit : ∀ n < 10, asciiDigit n ≠ '-' := by decide
  unfold plain at h
  split at h
  · exact h
  · split at h
    · exact absurd h (by decide)
    · split at h
      · next n hn => exact absurd h (hdigit n (decimalDigit?_lt hn))
      · exact absurd h (by decide)

theorem splitSign_positive (h : '-' ∉ t) : (splitSign t).1 = false := by
  obtain ⟨rest, rfl, hsplit⟩ | ⟨rest, rfl, hsplit⟩ | hsplit := splitSign_cases t <;> rw [hsplit]
  exact absurd List.mem_cons_self h

theorem nonneg_of_read {n : Int} (h : read base t = .ok n) (ht : '-' ∉ t) : 0 ≤ n := by
  have hplain : '-' ∉ (t.map plain).dropWhile isAsciiSpace := by
    intro hmem
    obtain ⟨c, hc, hminus⟩ := List.mem_map.mp ((List.dropWhile_sublist _).subset hmem)
    exact ht (eq_minus_of_plain hminus ▸ hc)
  have hpositive := splitSign_positive hplain
  rcases hsplit : splitSign ((t.map plain).dropWhile isAsciiSpace) with ⟨negative, rest⟩
  rw [hsplit] at hpositive
  obtain rfl : negative = false := hpositive
  obtain ⟨-, -, -, rfl⟩ := (read_eq_ok_iff hsplit rfl rfl rfl).mp h
  exact Int.natCast_nonneg _

/-- A literal without a sign is not below zero. -/
theorem nonneg_of_parse {n : Int} (h : parse t = .ok n) (ht : ∀ c ∈ t, c ≠ '+' ∧ c ≠ '-') :
    0 ≤ n := by
  have hsplit : splitSign t = (false, t) :=
    splitSign_eq fun c hc => ht c (List.mem_of_mem_head? hc)
  rcases hbody : announced t with ⟨base, figures⟩
  have hminus : '-' ∉ figures := fun hmem =>
    (ht _ ((figures_of_parts hsplit hbody).2.subset hmem)).2 rfl
  obtain ⟨hparse, -⟩ | ⟨hparse, -⟩ := parse_cases hsplit hbody <;> rw [hparse] at h
  · cases h
  · obtain ⟨m, hm, rfl⟩ := map_eq_ok_iff.mp h
    exact nonneg_of_read hm hminus

/-! ## Spellings -/

/-- The ways to announce a base: a zero with its mark, a zero for octal, nothing for decimal. -/
def leads : List (Text × Nat) :=
  marks.map (fun mark => (['0', mark.1], mark.2)) ++ [(['0'], 8), ([], 10)]

theorem unsigned_writing {n : Nat} {lead : Text × Nat} {digits : Text} (hlead : lead ∈ leads)
    (hdigits : digits ∈ writings lead.2 n) (hlimit : lead.2 = 10 → digits.length ≤ decimalLimit) :
    ∃ vs, Unsigned (lead.1 ++ digits) lead.2 vs ∧ valueOf lead.2 vs = n := by
  have hbases : ∀ lead ∈ leads, 1 < lead.2 ∧ lead.2 ≤ 16 := by decide
  obtain ⟨hlow, hhigh⟩ := hbases lead hlead
  obtain ⟨vs, hvs, hlength, hvalue, hhead⟩ := exists_figures_writing hlow hhigh hdigits
  refine ⟨vs, ?_, hvalue⟩
  simp only [leads, List.mem_append, List.mem_map, List.mem_cons, List.not_mem_nil,
    or_false] at hlead
  obtain ⟨mark, hmark, rfl⟩ | rfl | rfl := hlead
  · exact .marked hmark (.plain hvs)
  · exact .octal (.plain hvs)
  · refine .decimal hvs ?_ (hlength ▸ hlimit rfl)
    obtain rfl | hpos := Nat.eq_zero_or_pos n
    · have hzero : ∀ digits ∈ writings 10 0, digits = ['0'] := by decide
      exact .inl (hzero digits hdigits)
    · exact .inr (hhead hpos)

/-- The literals of the integers are read as they are, and nothing else is read; in particular,
an integer is read back from what announces a base and its digits in this base. -/
theorem parse_iff_spells :
    (∀ w, Unspaced w →
      (∀ n, parse w = .ok n ↔ Spells w n) ∧
        ((∀ n, ¬Spells w n) → ∃ f, parse w = .error f ∧ Refused w f)) ∧
      ∀ n : Int, ∀ lead ∈ leads, ∀ digits ∈ writings lead.2 n.natAbs,
        (lead.2 = 10 → digits.length ≤ 4300) →
          parse (Text.sign n ++ lead.1 ++ digits) = .ok n ∧
            (0 ≤ n → parse ('+' :: lead.1 ++ digits) = .ok n) := by
  refine ⟨fun w hw => ⟨fun n => parse_eq_ok_iff hw, fun hno => ?_⟩, ?_⟩
  · cases h : parse w with
    | ok n => exact absurd ((parse_eq_ok_iff hw).mp h) (hno n)
    | error f => exact ⟨f, rfl, refused_of_parse h⟩
  · intro n lead hlead digits hdigits hlimit
    obtain ⟨vs, hvs, hvalue⟩ := unsigned_writing hlead hdigits hlimit
    have hread : ∀ {w : Text} {n : Int}, Spells w n → parse w = .ok n :=
      fun h => (parse_eq_ok_iff h.unspaced).mpr h
    have hpositive : 0 ≤ n → n = valueOf lead.2 vs := fun h => by omega
    constructor
    · rw [List.append_assoc]
      by_cases hneg : n < 0
      · rw [Text.sign, if_pos hneg]
        have hminus : n = -(valueOf lead.2 vs : Int) := by omega
        exact hread (hminus ▸ .minus hvs)
      · rw [Text.sign, if_neg hneg]
        exact hread (hpositive (by omega) ▸ .unsigned hvs)
    · intro hnonneg
      exact hread (hpositive hnonneg ▸ .plus hvs)

/-- A repeated mark with an underscore behind it and one between the digits, a figure of another
base, and a number in capital letters. -/
theorem parse_iff_spells_forms :
    (Unspaced "-0x0X_1_f".toList ∧ Spells "-0x0X_1_f".toList (-31) ∧
        parse "-0x0X_1_f".toList = .ok (-31)) ∧
      (Unspaced "0b2".toList ∧ (∀ n, ¬Spells "0b2".toList n) ∧
        ∃ f, parse "0b2".toList = .error f ∧ Refused "0b2".toList f) ∧
      parse "-0X1F".toList = .ok (-31) := by
  have hrepeated := (parse_iff_spells.1 "-0x0X_1_f".toList (by decide)).1 (-31)
  have hbinary := parse_iff_spells.1 "0b2".toList (by decide)
  have hwritten := parse_iff_spells.2 (-31) (['0', 'X'], 16) (by decide) ['1', 'F'] (by decide)
    (by decide)
  have hdigits : Unsigned "0x0X_1_f".toList 16 [1, 15] :=
    .marked (by decide) (.parted (by decide)
      (.apart ⟨by decide, by decide⟩ (.last ⟨by decide, by decide⟩)))
  have hspells : Spells "-0x0X_1_f".toList (-31) := .minus hdigits
  have hnone : ∀ n, ¬Spells "0b2".toList n := by
    intro n h
    have hparse : parse "0b2".toList = .error (.numeral 2 ['2']) := by decide
    rw [(hbinary.1 n).mpr h] at hparse
    cases hparse
  exact ⟨⟨by decide, hspells, hrepeated.mpr hspells⟩,
    ⟨by decide, hnone, hbinary.2 hnone⟩, hwritten.1⟩

end FileMagic.Numeral
