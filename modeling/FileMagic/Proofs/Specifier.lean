import FileMagic.Message.Template
import Mathlib.Data.Bool.AllAny
import Mathlib.Data.List.Forall2

/-! # Where conversions stand in a template

A conversion is written as a per cent sign, flags, a width, a precision, a length and a letter
(`Specifier`). A zero is a flag and a digit, so that a text can be read as these parts in several
ways. But nothing before the letter can be a letter, and therefore one conversion at most starts at
a per cent sign, and taking the longest run for each part finds it (`read?_body`,
`body_of_read?`). A template is split at its leftmost conversions (`Splits`); what starts none is
copied. There is one such split, and the pieces of the template are its parts (`Splits.pieces`). -/

namespace FileMagic

namespace Template

/-- The lengths of integers. -/
def lengths : List Text := [[], ['h'], ['h', 'h'], ['l'], ['l', 'l'], ['q']]

/-- The letters that end a conversion. -/
def letters : Text := ['s', 'd', 'i', 'u', 'x', 'X', '%']

/-- A precision behind its point. -/
def pointed : Option Text → Text
  | none => []
  | some digits => '.' :: digits

/-- A conversion as a template writes it. -/
structure Specifier where
  flags : Text
  width : Text
  precision : Option Text
  length : Text
  letter : Char
  areFlags : ∀ c ∈ flags, Conversion.isFlag c = true
  widthDigits : ∀ c ∈ width, isDecimalDigit c = true
  precisionDigits : ∀ digits ∈ precision, digits ≠ [] ∧ ∀ c ∈ digits, isDecimalDigit c = true
  length_mem : length ∈ lengths
  letter_mem : letter ∈ letters

namespace Specifier

/-- What follows the per cent sign. -/
def body (s : Specifier) : Text :=
  s.flags ++ (s.width ++ (pointed s.precision ++ (s.length ++ [s.letter])))

def text (s : Specifier) : Text := '%' :: s.body

def kind (s : Specifier) : ConversionKind := (ConversionKind.ofLetter? s.letter).getD .percent

/-- The conversion that is read: zeros at the start of a width are flags. -/
def conversion (s : Specifier) : Conversion :=
  ⟨s.flags ++ s.width.takeWhile (· = '0'), s.width.dropWhile (· = '0'), s.precision, s.kind⟩

end Specifier

theorem ofLetter?_letter (s : Specifier) : ConversionKind.ofLetter? s.letter = some s.kind := by
  have hsome : ∀ c ∈ letters, (ConversionKind.ofLetter? c).isSome = true :=
    List.all_iff_forall_prop.mp (by decide)
  obtain ⟨kind, hkind⟩ := Option.isSome_iff_exists.mp (hsome s.letter s.letter_mem)
  rw [Specifier.kind, hkind]
  rfl

theorem mem_letters_of_ofLetter? {c : Char} {kind : ConversionKind}
    (h : ConversionKind.ofLetter? c = some kind) : c ∈ letters := by
  unfold ConversionKind.ofLetter? at h
  split at h
  case h_8 => cases h
  all_goals decide

/-- A flag that is a digit is the zero. -/
theorem eq_zero_of_isFlag {c : Char} (hf : Conversion.isFlag c = true)
    (hd : isDecimalDigit c = true) : c = '0' := by
  simp only [Conversion.isFlag, Bool.or_eq_true, decide_eq_true_eq] at hf
  rcases hf with (((rfl | rfl) | rfl) | rfl) | rfl
  · exact absurd hd (by decide)
  · exact absurd hd (by decide)
  · exact absurd hd (by decide)
  · exact absurd hd (by decide)
  · rfl

/-- The characters that may follow flags and width end both. -/
def stops : Text := '.' :: 'h' :: 'l' :: 'q' :: letters

theorem not_isFlag_of_mem_stops : ∀ c ∈ stops, Conversion.isFlag c = false :=
  List.all_iff_forall_prop.mp (by decide)

theorem not_isDecimalDigit_of_mem_stops : ∀ c ∈ stops, isDecimalDigit c = false :=
  List.all_iff_forall_prop.mp (by decide)

/-- The length and the letter start with a character that ends digits. -/
theorem head_length (s : Specifier) (rest : Text) :
    ∃ c t, s.length ++ s.letter :: rest = c :: t ∧ c ∈ stops ∧ c ≠ '.' := by
  have hletter : s.letter ∈ stops ∧ s.letter ≠ '.' := by
    have hall : ∀ c ∈ letters, c ∈ stops ∧ c ≠ '.' := List.all_iff_forall_prop.mp (by decide)
    exact hall s.letter s.letter_mem
  cases hl : s.length with
  | nil => exact ⟨s.letter, rest, rfl, hletter⟩
  | cons c t =>
    have hall : ∀ c ∈ lengths.flatten, c ∈ stops ∧ c ≠ '.' :=
      List.all_iff_forall_prop.mp (by decide)
    have hc : c ∈ lengths.flatten := List.mem_flatten.mpr ⟨s.length, s.length_mem, by simp [hl]⟩
    exact ⟨c, t ++ s.letter :: rest, rfl, hall c hc⟩

theorem head_precision (s : Specifier) (rest : Text) :
    ∃ c t, pointed s.precision ++ (s.length ++ s.letter :: rest) = c :: t ∧ c ∈ stops := by
  cases hp : s.precision with
  | none =>
    obtain ⟨c, t, heq, hc, -⟩ := head_length s rest
    exact ⟨c, t, heq, hc⟩
  | some digits => exact ⟨'.', digits ++ (s.length ++ s.letter :: rest), rfl, List.mem_cons_self⟩

theorem dropLength_length (s : Specifier) (rest : Text) :
    Conversion.dropLength (s.length ++ s.letter :: rest) = s.letter :: rest := by
  have hlength := s.length_mem
  have hletter := s.letter_mem
  simp only [lengths, List.mem_cons, List.not_mem_nil, or_false] at hlength
  simp only [letters, List.mem_cons, List.not_mem_nil, or_false] at hletter
  rcases hlength with h | h | h | h | h | h <;>
    rcases hletter with hc | hc | hc | hc | hc | hc | hc <;> rw [h, hc] <;> rfl

theorem splitPrecision_pointed (s : Specifier) (rest : Text) :
    Conversion.splitPrecision (pointed s.precision ++ (s.length ++ s.letter :: rest)) =
      (s.precision, s.length ++ s.letter :: rest) := by
  obtain ⟨c, t, heq, hc, hpoint⟩ := head_length s rest
  rw [heq]
  cases hp : s.precision with
  | none =>
    rw [pointed, List.nil_append, Conversion.splitPrecision]
    intro rest hcons
    exact hpoint (List.cons.inj hcons).1
  | some digits =>
    obtain ⟨hne, hdigits⟩ := s.precisionDigits digits hp
    have hstop : (c :: t).head?.any isDecimalDigit = false :=
      not_isDecimalDigit_of_mem_stops c hc
    obtain ⟨d, more, rfl⟩ := List.exists_cons_of_ne_nil hne
    rw [pointed, List.cons_append, Conversion.splitPrecision, Text.takeWhile_run hdigits hstop,
      Text.dropWhile_run hdigits hstop]

/-- What is written is read. -/
theorem read?_body (s : Specifier) (rest : Text) :
    Conversion.read? (s.body ++ rest) = some (s.conversion, rest) := by
  have hsplit := List.takeWhile_append_dropWhile (p := fun c => decide (c = '0')) (l := s.width)
  have hwhole : s.body ++ rest = (s.flags ++ s.width.takeWhile (· = '0')) ++
      (s.width.dropWhile (· = '0') ++
        (pointed s.precision ++ (s.length ++ s.letter :: rest))) := by
    rw [List.append_assoc, ← List.append_assoc (s.width.takeWhile _), hsplit]
    simp [Specifier.body]
  obtain ⟨c, t, htail, hc⟩ := head_precision s rest
  have hflags : ∀ c ∈ s.flags ++ s.width.takeWhile (· = '0'), Conversion.isFlag c = true := by
    intro c hc
    rcases List.mem_append.mp hc with h | h
    · exact s.areFlags c h
    · have hzero := List.all_eq_true.mp List.all_takeWhile c h
      rw [of_decide_eq_true hzero]
      decide
  have hdigits : ∀ c ∈ s.width.dropWhile (· = '0'), isDecimalDigit c = true := fun c h =>
    s.widthDigits c ((List.dropWhile_sublist _).subset h)
  -- the width goes on after its zeros with a digit that is no flag, or ends
  have hstop : (s.width.dropWhile (· = '0') ++ c :: t).head?.any Conversion.isFlag = false := by
    cases hw : s.width.dropWhile (· = '0') with
    | nil => exact not_isFlag_of_mem_stops c hc
    | cons d more =>
      have hzero : ¬ d = '0' := by
        have hhead := List.head?_dropWhile_not (fun c => decide (c = '0')) s.width
        rw [hw] at hhead
        simpa using hhead
      refine Bool.eq_false_iff.mpr fun hflag => hzero ?_
      exact eq_zero_of_isFlag hflag (hdigits d (by simp [hw]))
  have hprecision := splitPrecision_pointed s rest
  have hend : (c :: t).head?.any isDecimalDigit = false := not_isDecimalDigit_of_mem_stops c hc
  rw [htail] at hwhole hprecision
  rw [hwhole, Conversion.read?]
  simp only [Text.takeWhile_run hflags hstop, Text.dropWhile_run hflags hstop,
    Text.takeWhile_run hdigits hend, Text.dropWhile_run hdigits hend, hprecision,
    dropLength_length, ofLetter?_letter]
  rfl

theorem pointed_of_splitPrecision {t after : Text} {precision : Option Text}
    (h : Conversion.splitPrecision t = (precision, after)) : t = pointed precision ++ after ∧
      ∀ digits ∈ precision, digits ≠ [] ∧ ∀ c ∈ digits, isDecimalDigit c = true := by
  unfold Conversion.splitPrecision at h
  split at h
  · next rest =>
    split at h
    · cases h
      exact ⟨rfl, nofun⟩
    · next hne =>
      cases h
      refine ⟨congrArg ('.' :: ·) List.takeWhile_append_dropWhile.symm, fun digits hd => ?_⟩
      cases hd
      exact ⟨hne, List.all_eq_true.mp List.all_takeWhile⟩
  · cases h
    exact ⟨rfl, nofun⟩

theorem length_of_dropLength (t : Text) : ∃ l ∈ lengths, t = l ++ Conversion.dropLength t := by
  unfold Conversion.dropLength
  split
  · exact ⟨['h', 'h'], by decide, rfl⟩
  · exact ⟨['l', 'l'], by decide, rfl⟩
  · exact ⟨['h'], by decide, rfl⟩
  · exact ⟨['l'], by decide, rfl⟩
  · exact ⟨['q'], by decide, rfl⟩
  · exact ⟨[], by decide, rfl⟩

/-- What is read has been written. -/
theorem body_of_read? {t rest : Text} {c : Conversion} (h : Conversion.read? t = some (c, rest)) :
    ∃ s : Specifier, t = s.body ++ rest := by
  rw [Conversion.read?] at h
  obtain ⟨⟨precision, after⟩, hprecision⟩ : ∃ split, Conversion.splitPrecision
      ((t.dropWhile Conversion.isFlag).dropWhile isDecimalDigit) = split := ⟨_, rfl⟩
  obtain ⟨hpointed, hdigits⟩ := pointed_of_splitPrecision hprecision
  obtain ⟨length, hlength, hafter⟩ := length_of_dropLength after
  simp only [hprecision] at h
  split at h
  · cases h
  · next letter rest' hletter =>
    obtain ⟨kind, hkind, heq⟩ := Option.map_eq_some_iff.mp h
    cases heq
    refine ⟨⟨t.takeWhile Conversion.isFlag,
      (t.dropWhile Conversion.isFlag).takeWhile isDecimalDigit, precision, length, letter,
      List.all_eq_true.mp List.all_takeWhile, List.all_eq_true.mp List.all_takeWhile, hdigits,
      hlength, mem_letters_of_ofLetter? hkind⟩, ?_⟩
    rw [hletter] at hafter
    calc t = t.takeWhile Conversion.isFlag ++ ((t.dropWhile Conversion.isFlag).takeWhile
            isDecimalDigit ++ (t.dropWhile Conversion.isFlag).dropWhile isDecimalDigit) := by
          rw [List.takeWhile_append_dropWhile, List.takeWhile_append_dropWhile]
      _ = _ := by
          rw [hpointed, hafter]
          simp [Specifier.body]

/-- At most one conversion starts at a place. -/
theorem body_unique {s s' : Specifier} {rest rest' : Text}
    (h : s.body ++ rest = s'.body ++ rest') : s.body = s'.body ∧ rest = rest' := by
  have hread := read?_body s rest
  rw [h, read?_body s' rest', Option.some.injEq, Prod.mk.injEq] at hread
  obtain ⟨-, rfl⟩ := hread
  exact ⟨List.append_cancel_right h, rfl⟩

theorem starts_none_iff {c : Char} {t : Text} : (∀ s : Specifier, ¬ s.text <+: c :: t) ↔
    (c = '%' → Conversion.read? t = none) := by
  constructor
  · rintro h rfl
    refine Option.eq_none_iff_forall_ne_some.mpr fun found hread => ?_
    obtain ⟨s, hs⟩ := body_of_read? hread
    exact h s (List.cons_prefix_cons.mpr ⟨rfl, found.2, hs.symm⟩)
  · intro h s hs
    obtain ⟨hc, rest, rfl⟩ := List.cons_prefix_cons.mp hs
    have hread := h hc.symm
    rw [read?_body] at hread
    cases hread

/-! ## Splitting a template -/

/-- A part of a template: a character that is copied, or a conversion. -/
inductive Part where
  | char (c : Char)
  | conversion (s : Specifier)

namespace Part

def text : Part → Text
  | .char c => [c]
  | .conversion s => s.text

def piece : Part → Piece
  | .char c => .char c
  | .conversion s => .conversion s.conversion

end Part

def textOf (parts : List Part) : Text := parts.flatMap Part.text

/-- No conversion starts at a character that is copied. -/
def Leftmost : List Part → Prop
  | [] => True
  | .char c :: rest => (∀ s : Specifier, ¬ s.text <+: c :: textOf rest) ∧ Leftmost rest
  | .conversion _ :: rest => Leftmost rest

instance decidableLeftmost : ∀ parts : List Part, Decidable (Leftmost parts)
  | [] => isTrue trivial
  | .char c :: rest =>
    have := decidableLeftmost rest
    decidable_of_iff ((c = '%' → Conversion.read? (textOf rest) = none) ∧ Leftmost rest)
      (and_congr_left fun _ => starts_none_iff.symm)
  | .conversion _ :: rest => decidableLeftmost rest

/-- The parts are the leftmost conversions of a template, which do not overlap, and the characters
between them. -/
structure Splits (template : Text) (parts : List Part) : Prop where
  text : textOf parts = template
  leftmost : Leftmost parts

theorem exists_splits (template : Text) : ∃ parts, Splits template parts := by
  -- on the length, because a conversion takes several characters at once
  induction hn : template.length using Nat.strongRecOn generalizing template with
  | ind n ih =>
    cases template with
    | nil => exact ⟨[], rfl, trivial⟩
    | cons c rest =>
      by_cases h : ∃ s : Specifier, s.text <+: c :: rest
      · obtain ⟨s, after, hs⟩ := h
        have hlen := congrArg List.length hs
        simp only [Specifier.text, List.cons_append, List.length_cons, List.length_append] at hlen
        obtain ⟨parts, htext, hleft⟩ := ih after.length (by rw [← hn, List.length_cons]; omega)
          after rfl
        refine ⟨.conversion s :: parts, ?_, hleft⟩
        rw [← hs, ← htext]
        rfl
      · obtain ⟨parts, htext, hleft⟩ := ih rest.length (by rw [← hn, List.length_cons]; omega)
          rest rfl
        refine ⟨.char c :: parts, ?_, fun s hs => h ⟨s, htext ▸ hs⟩, hleft⟩
        rw [← htext]
        rfl

theorem pieces_of_leftmost {parts : List Part} (h : Leftmost parts) :
    pieces (textOf parts) = parts.map Part.piece := by
  induction parts with
  | nil => rfl
  | cons part rest ih =>
    cases part with
    | char c =>
      obtain ⟨hnone, hrest⟩ := h
      have hcopied : pieces (c :: textOf rest) = .char c :: pieces (textOf rest) := by
        by_cases hc : c = '%'
        · subst hc
          rw [pieces, piecesAfter, if_pos rfl, starts_none_iff.mp hnone rfl]
          rfl
        · rw [pieces, piecesAfter, if_neg hc]
          rfl
      refine Eq.trans hcopied ?_
      rw [ih hrest]
      rfl
    | conversion s =>
      have hskip : (s.body ++ textOf rest).length - (textOf rest).length = s.body.length := by
        rw [List.length_append, Nat.add_sub_cancel]
      have hconverted : pieces ('%' :: (s.body ++ textOf rest)) =
          .conversion s.conversion :: pieces (textOf rest) := by
        rw [pieces, piecesAfter, if_pos rfl, read?_body]
        simp only [hskip]
        rw [piecesAfter_eq_drop, List.drop_left]
        rfl
      refine Eq.trans hconverted ?_
      rw [ih h]
      rfl

theorem Leftmost.tail {part : Part} {rest : List Part} (h : Leftmost (part :: rest)) :
    Leftmost rest := by
  cases part with
  | char c => exact h.2
  | conversion s => exact h

namespace Splits

variable {template : Text} {parts parts' : List Part}

theorem pieces (h : Splits template parts) : Template.pieces template = parts.map Part.piece := by
  rw [← h.text]
  exact pieces_of_leftmost h.leftmost

/-- The texts of the parts are determined by the template. -/
theorem unique (h : Splits template parts) (h' : Splits template parts') :
    parts.map Part.text = parts'.map Part.text := by
  obtain ⟨rfl, hleft⟩ := h
  obtain ⟨htext, hleft'⟩ := h'
  induction parts generalizing parts' with
  | nil =>
    cases parts' with
    | nil => rfl
    | cons part rest => cases part <;> cases htext
  | cons part rest ih =>
    cases parts' with
    | nil => cases part <;> cases htext
    | cons part' rest' =>
      have hrest : textOf rest' = textOf rest → rest.map Part.text = rest'.map Part.text :=
        fun heq => ih hleft.tail heq hleft'.tail
      cases part with
      | char c =>
        cases part' with
        | char c' =>
          obtain ⟨rfl, heq⟩ := List.cons.inj htext
          rw [List.map_cons, List.map_cons, hrest heq, Part.text]
        | conversion s' => exact absurd ⟨textOf rest', htext⟩ (hleft.1 s')
      | conversion s =>
        cases part' with
        | char c' => exact absurd ⟨textOf rest, htext.symm⟩ (hleft'.1 s)
        | conversion s' =>
          obtain ⟨hbody, heq⟩ := body_unique (List.cons.inj htext).2
          rw [List.map_cons, List.map_cons, hrest heq, Part.text, Part.text, Specifier.text,
            Specifier.text, hbody]

end Splits

/-! ## Lengths -/

/-- The parts differ in the length of a conversion at most. -/
inductive Part.SameButLength : Part → Part → Prop
  | char (c : Char) : SameButLength (.char c) (.char c)
  | conversion {s s' : Specifier} (flags : s.flags = s'.flags) (width : s.width = s'.width)
      (precision : s.precision = s'.precision) (letter : s.letter = s'.letter) :
      SameButLength (.conversion s) (.conversion s')

/-- There is no second per cent sign before the letter. -/
theorem body_eq (s : Specifier) : ∃ t, s.body = t ++ [s.letter] ∧ '%' ∉ t := by
  refine ⟨s.flags ++ (s.width ++ (pointed s.precision ++ s.length)), by simp [Specifier.body], ?_⟩
  simp only [List.mem_append, not_or]
  refine ⟨fun h => ?_, fun h => ?_, fun h => ?_, fun h => ?_⟩
  · exact absurd (s.areFlags _ h) (by decide)
  · exact absurd (s.widthDigits _ h) (by decide)
  · cases hp : s.precision with
    | none =>
      rw [hp] at h
      cases h
    | some digits =>
      rw [hp] at h
      rcases List.mem_cons.mp h with h | h
      · exact absurd h (by decide)
      · exact absurd ((s.precisionDigits digits hp).2 _ h) (by decide)
  · have hall : ∀ l ∈ lengths, '%' ∉ l := by decide
    exact hall s.length s.length_mem h

/-- The lengths do not show before the next per cent sign. -/
theorem prefix_iff_of_sameButLength {parts parts' : List Part}
    (h : List.Forall₂ Part.SameButLength parts parts') {t : Text} {c : Char} (ht : '%' ∉ t) :
    t ++ [c] <+: textOf parts ↔ t ++ [c] <+: textOf parts' := by
  have hfirst : ∀ (d : Char) (rest : Text), [c] <+: d :: rest ↔ c = d := by simp
  induction h generalizing t with
  | nil => exact Iff.rfl
  | cons hpart _ ih =>
    cases hpart with
    | char d =>
      cases t with
      | nil => exact (hfirst d _).trans (hfirst d _).symm
      | cons e t =>
        rw [List.mem_cons, not_or] at ht
        exact List.cons_prefix_cons.trans
          ((and_congr_right fun _ => ih ht.2).trans List.cons_prefix_cons.symm)
    | conversion =>
      cases t with
      | nil => exact (hfirst '%' _).trans (hfirst '%' _).symm
      | cons e t =>
        rw [List.mem_cons, not_or] at ht
        exact iff_of_false (fun hp => ht.1 (List.cons_prefix_cons.mp hp).1.symm)
          fun hp => ht.1 (List.cons_prefix_cons.mp hp).1.symm

theorem Leftmost.of_sameButLength {parts parts' : List Part}
    (h : List.Forall₂ Part.SameButLength parts parts') (hleft : Leftmost parts) :
    Leftmost parts' := by
  induction h with
  | nil => trivial
  | cons hpart hrest ih =>
    cases hpart with
    | char c =>
      refine ⟨fun s hs => hleft.1 s ?_, ih hleft.2⟩
      obtain ⟨hc, hbody⟩ := List.cons_prefix_cons.mp hs
      obtain ⟨t, heq, ht⟩ := body_eq s
      rw [heq, ← prefix_iff_of_sameButLength hrest ht, ← heq] at hbody
      exact List.cons_prefix_cons.mpr ⟨hc, hbody⟩
    | conversion => exact ih hleft

/-- What is read does not depend on the lengths. -/
theorem map_piece_of_sameButLength {parts parts' : List Part}
    (h : List.Forall₂ Part.SameButLength parts parts') :
    parts.map Part.piece = parts'.map Part.piece := by
  induction h with
  | nil => rfl
  | cons hpart _ ih =>
    rw [List.map_cons, List.map_cons, ih]
    cases hpart with
    | char c => rfl
    | conversion flags width precision letter =>
      simp only [Part.piece, Specifier.conversion, Specifier.kind, flags, width, precision, letter]

theorem pieces_of_sameButLength {template : Text} {parts parts' : List Part}
    (h : Splits template parts) (hsame : List.Forall₂ Part.SameButLength parts parts') :
    pieces (textOf parts') = pieces template := by
  rw [pieces_of_leftmost (h.leftmost.of_sameButLength hsame), h.pieces,
    map_piece_of_sameButLength hsame]

end Template
end FileMagic
