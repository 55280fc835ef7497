import FileMagic.Pattern.Engine
import FileMagic.Proofs.Except
import FileMagic.RuleText.Line

/-! # Reading a line gives back its parts

A rule line is laid out as fields with blanks between them: the offset behind its depth marks,
the type, the relation with the value, and the words of the message (`LineText.text`). Reading it
gives the test that these parts stand for (`LineText.Asks`). The fields are told apart by their
blanks alone, so that each has a lemma of its own; what they share is that an offset that can be
read does not start with a depth mark, and that a value is not taken for a part of its relation. -/

namespace FileMagic

namespace Text

/-- What stands between two fields. -/
structure IsGap (t : Text) : Prop where
  nonempty : t ≠ []
  blank : ∀ c ∈ t, isBlank c = true

structure IsField (t : Text) : Prop where
  nonempty : t ≠ []
  unblank : ∀ c ∈ t, isBlank c = false

/-- The check of a gap on the data. -/
theorem isGap_of_all {t : Text} (h : t ≠ []) (ha : t.all isBlank = true) : t.IsGap :=
  ⟨h, List.all_eq_true.mp ha⟩

theorem unblank_of_any {t : Text} (h : t.any isBlank = false) : ∀ c ∈ t, isBlank c = false := by
  intro c hc
  exact Bool.eq_false_iff.mpr (List.any_eq_false.mp h c hc)

theorem isField_of_any {t : Text} (h : t ≠ []) (ha : t.any isBlank = false) : t.IsField :=
  ⟨h, unblank_of_any ha⟩

/-- Fields, each but the first behind its gap. -/
def spaced (first : Text) (others : List (Text × Text)) : Text :=
  first ++ others.flatMap fun (gap, field) => gap ++ field

theorem words_gap {gap : Text} (h : ∀ c ∈ gap, isBlank c = true) (t : Text) :
    words (gap ++ t) = words t := by
  induction gap with
  | nil => rfl
  | cons c gap ih =>
    obtain ⟨hc, hgap⟩ := List.forall_mem_cons.mp h
    rw [List.cons_append, words_of_blank hc, ih hgap]

/-- A field ends at a blank or with the text. -/
theorem words_field {field t : Text} (h : field.IsField) (ht : ∀ c ∈ t.head?, isBlank c = true) :
    words (field ++ t) = field :: words t := by
  obtain ⟨hne, hun⟩ := h
  induction field with
  | nil => exact absurd rfl hne
  | cons c field ih =>
    obtain ⟨hc, hfield⟩ := List.forall_mem_cons.mp hun
    -- a word goes on as long as the next character does
    cases field with
    | nil =>
      cases t with
      | nil => simp [words, hc]
      | cons d t =>
        have hd : isBlank d = true := ht d rfl
        simp [words, hc, hd]
    | cons d field =>
      have hd : isBlank d = false := hfield d (List.mem_cons_self ..)
      have hrest := ih (List.cons_ne_nil d field) hfield
      rw [List.cons_append] at hrest
      rw [List.cons_append, List.cons_append, words]
      simp only [hc, hd, hrest, Bool.false_eq_true, if_false]

/-- The words of a text are its fields. -/
theorem words_spaced {first : Text} {others : List (Text × Text)} (hf : first.IsField)
    (ho : ∀ p ∈ others, p.1.IsGap ∧ p.2.IsField) :
    words (spaced first others) = first :: others.map Prod.snd := by
  induction others generalizing first with
  | nil =>
    have hend : words (first ++ []) = first :: words [] := words_field hf (by simp)
    rw [spaced, List.flatMap_nil, hend]
    rfl
  | cons p others ih =>
    obtain ⟨⟨hgap, hfield⟩, hrest⟩ := List.forall_mem_cons.mp ho
    have hhead : ∀ c ∈ (p.1 ++ spaced p.2 others).head?, isBlank c = true := by
      intro c hc
      obtain ⟨b, gap, hcons⟩ := List.exists_cons_of_ne_nil hgap.nonempty
      rw [hcons, List.cons_append, List.head?_cons, Option.mem_some_iff] at hc
      exact hgap.blank c (by rw [hcons, hc]; exact List.mem_cons_self ..)
    have hlaid : spaced first (p :: others) = first ++ (p.1 ++ spaced p.2 others) := by
      rw [spaced, spaced, List.flatMap_cons, List.append_assoc]
    rw [hlaid, words_field hf hhead, words_gap hgap.blank, ih hfield hrest]
    rfl

end Text

namespace Numeral

/-- No numeral starts with the mark of the depth of a rule. -/
theorem parse_mark (t : Text) :
    parse (RuleText.depthMark :: t) = .error (.numeral 10 (RuleText.depthMark :: t)) := rfl

end Numeral

namespace Width

/-- A signed integer is the one of least magnitude among those that are congruent. -/
theorem wrap_eq (w : Width) (signed : Bool) (n : Int) :
    w.wrap signed n = if signed then n.bmod (2 ^ w.bits) else n % 2 ^ w.bits := by
  cases signed with
  | false => simp [wrap]
  | true =>
    have hpow : ((2 ^ w.bits : Nat) : Int) = 2 ^ w.bits := Int.natCast_pow 2 w.bits
    have hhalf : ((2 : Int) ^ w.bits + 1) / 2 = 2 ^ (w.bits - 1) := by cases w <;> decide
    rw [wrap, Int.bmod, hpow, hhalf, Bool.true_and, if_pos rfl]
    by_cases h : n % 2 ^ w.bits < 2 ^ (w.bits - 1)
    · rw [if_pos h, if_neg (by simpa using h)]
    · rw [if_neg h, if_pos (by simpa using h)]

end Width

namespace RuleText

/-! ## The parts of a line -/

/-- The relations, each before the value it compares with. -/
def relations : List (Text × Operator) :=
  [([], .equal), (['='], .equal), (['!'], .notEqual), (['<'], .less), (['<', '='], .atMost),
    (['>'], .greater), (['>', '='], .atLeast)]

/-- Whether a value behind a relation can be told from it. -/
def Separable (relation value : Text) : Prop :=
  match relation with
  | [] => value ≠ anyValue ∧ ∀ c ∈ value.head?, c ∉ ['<', '>', '=', '!']
  | ['<'] | ['>'] => value.head? ≠ some '='
  | _ => True

/-- The mark of a byte order, which the native one has not. -/
def orderMark : Endianness → Text
  | .little => ['l', 'e']
  | .big => ['b', 'e']
  | .middle => ['m', 'e']
  | .native => []

def integerKeywords : List (Text × Width) :=
  [("byte".toList, .byte), ("short".toList, .short), ("long".toList, .long), ("quad".toList, .quad)]

/-- What dates count, and whether they are shown in local time. -/
def dateKeywords : List (Text × DateScale × Bool) :=
  [("date".toList, .seconds, false), ("ldate".toList, .seconds, true),
    ("qdate".toList, .longSeconds, false), ("qldate".toList, .longSeconds, true),
    ("qwdate".toList, .fileTime, false)]

/-- A rule line by its parts. -/
structure LineText where
  depth : Nat
  offset : Text
  unsigned : Bool
  order : Endianness
  keyword : Text
  relation : Text
  value : Text
  /-- What stands before the type, and before the relation. -/
  gaps : Text × Text
  /-- The words of the message, each behind its gap. -/
  message : List (Text × Text)

namespace LineText

def typeText (l : LineText) : Text :=
  (if l.unsigned then ['u'] else []) ++ orderMark l.order ++ l.keyword

def text (l : LineText) : Text :=
  Text.spaced (List.replicate l.depth depthMark ++ l.offset)
    ((l.gaps.1, l.typeText) :: (l.gaps.2, l.relation ++ l.value) :: l.message)

/-- The parts are fields, and gaps stand between them. -/
structure IsLaid (l : LineText) : Prop where
  offset : ∀ c ∈ l.offset, isBlank c = false
  value : l.value.IsField
  gaps : l.gaps.1.IsGap ∧ l.gaps.2.IsGap
  message : ∀ p ∈ l.message, p.1.IsGap ∧ p.2.IsField

/-- The relation stands for the operator. -/
structure Relates (l : LineText) (operator : Operator) : Prop where
  relation : (l.relation, operator) ∈ relations
  separable : Separable l.relation l.value

/-- The value is an integer that fits in so many bits, signed or not. -/
structure Counts (l : LineText) (bits : Nat) (n : Int) : Prop where
  value : Numeral.parse l.value = .ok n
  low : -(2 ^ (bits - 1)) ≤ n
  high : n < 2 ^ bits

/-- The test that a line asks for at an offset, by an operator. -/
inductive Asks (l : LineText) (offset : Offset) (operator : Operator) : Test → Prop
  | integer {width : Width} {n : Int} (keyword : (l.keyword, width) ∈ integerKeywords)
      (order : width = .byte → l.order = .native) (value : l.Counts width.bits n) :
      Asks l offset operator (.integer ⟨offset, width, !l.unsigned, l.order, operator,
        some (if l.unsigned then n % 2 ^ width.bits else n.bmod (2 ^ width.bits))⟩)
  | date {scale : DateScale} {isLocal : Bool} {n : Int}
      (keyword : (l.keyword, scale, isLocal) ∈ dateKeywords)
      (value : l.Counts scale.width.bits n) :
      Asks l offset operator (.date ⟨offset, scale, isLocal, l.order, operator,
        some (n % 2 ^ scale.width.bits)⟩)
  | string (keyword : l.keyword = "string".toList) (unmarked : l.unsigned = false)
      (unordered : l.order = .native) :
      Asks l offset operator (.literal ⟨offset, operator, l.value.utf8⟩)
  | guid (keyword : l.keyword = "guid".toList) (unmarked : l.unsigned = false)
      (unordered : l.order = .native) :
      Asks l offset operator (.guid ⟨offset, operator, some l.value.upper⟩)

end LineText

/-! ## The offset -/

/-- An offset that can be read is told from the marks before it. -/
theorem head_of_readOffset {t : Text} {offset : Offset} (h : readOffset t = .ok offset) :
    ∃ c rest, t = c :: rest ∧ c ≠ depthMark := by
  cases t with
  | nil => cases h
  | cons c rest =>
    refine ⟨c, rest, rfl, ?_⟩
    intro hc
    subst hc
    have hread : readOffset (depthMark :: rest) =
        (Numeral.parse (depthMark :: rest)).map .fixed := rfl
    rw [hread, Numeral.parse_mark] at h
    cases h

theorem takeWhile_marks {c : Char} (hc : c ≠ depthMark) (depth : Nat) (rest : Text) :
    (List.replicate depth depthMark ++ c :: rest).takeWhile (· = depthMark) =
      List.replicate depth depthMark := by
  rw [List.takeWhile_append_of_pos (by simp), List.takeWhile_cons_of_neg (by simpa using hc),
    List.append_nil]

theorem dropWhile_marks {c : Char} (hc : c ≠ depthMark) (depth : Nat) (rest : Text) :
    (List.replicate depth depthMark ++ c :: rest).dropWhile (· = depthMark) = c :: rest := by
  rw [List.dropWhile_append_of_pos (by simp), List.dropWhile_cons_of_neg (by simpa using hc)]

/-! ## The relation -/

/-- A sign alone, where no equality sign follows to make another relation of it. -/
theorem splitRelation_strict {value : Text} (h : value.head? ≠ some '=') :
    splitRelation ('<' :: value) = (.less, value) ∧
      splitRelation ('>' :: value) = (.greater, value) := by
  cases value with
  | nil => exact ⟨rfl, rfl⟩
  | cons c rest =>
    have hc : c ≠ '=' := fun e => h (congrArg some e)
    simp [splitRelation, hc]

theorem splitRelation_eq {relation value : Text} {operator : Operator}
    (hr : (relation, operator) ∈ relations) (hs : Separable relation value) :
    splitRelation (relation ++ value) = (operator, value) := by
  simp only [relations, List.mem_cons, Prod.mk.injEq, List.not_mem_nil, or_false] at hr
  rcases hr with ⟨rfl, rfl⟩ | ⟨rfl, rfl⟩ | ⟨rfl, rfl⟩ | ⟨rfl, rfl⟩ | ⟨rfl, rfl⟩ | ⟨rfl, rfl⟩ |
    ⟨rfl, rfl⟩
  · cases value with
    | nil => rfl
    | cons c rest =>
      have hc := hs.2 c rfl
      simp only [List.mem_cons, List.not_mem_nil, or_false, not_or] at hc
      simp [splitRelation, hc]
  · rfl
  · rfl
  · exact (splitRelation_strict hs).1
  · rfl
  · exact (splitRelation_strict hs).2
  · rfl

/-- The two that could be taken for something else are a bare x and a relation that goes on in
its value. -/
theorem readTestValue_eq {relation value : Text} {operator : Operator}
    (hr : (relation, operator) ∈ relations) (hv : value ≠ []) (hs : Separable relation value) :
    readTestValue (relation ++ value) = .ok (operator, some value) := by
  have hany : relation ++ value ≠ anyValue := by
    intro h
    rw [anyValue, List.append_eq_singleton_iff] at h
    rcases h with ⟨rfl, h⟩ | ⟨-, h⟩
    · exact hs.1 h
    · exact hv h
  rw [readTestValue, if_neg hany, splitRelation_eq hr hs]
  simp [hv]

theorem unblank_of_relation {relation : Text} {operator : Operator}
    (h : (relation, operator) ∈ relations) : ∀ c ∈ relation, isBlank c = false := by
  have hall : ∀ r ∈ relations, r.1.any isBlank = false := by decide
  exact Text.unblank_of_any (hall (relation, operator) h)

theorem ne_any_of_relation {relation : Text} {operator : Operator}
    (h : (relation, operator) ∈ relations) : operator ≠ .any := by
  have hall : ∀ r ∈ relations, r.2 ≠ .any := by decide
  exact hall (relation, operator) h

/-! ## The type -/

namespace LineText

/-- The type of a line, which may be marked in this way. -/
structure IsTyped (l : LineText) (t : ReadType) : Prop where
  keyword : (l.keyword, t) ∈ ReadType.keywords
  unsigned : l.unsigned = true → t.canBeUnsigned = true
  order : l.order ≠ .native → t.hasOrder = true

variable {l : LineText} {t : ReadType}

/-- No keyword with its marks is another keyword. -/
theorem IsTyped.readType (h : l.IsTyped t) :
    readType l.typeText = .ok ⟨t, !l.unsigned, l.order, []⟩ := by
  have hall : ∀ k ∈ ReadType.keywords, ∀ order ∈ Endianness.all, ∀ unsigned : Bool,
      (unsigned = true → k.2.canBeUnsigned = true) → (order ≠ .native → k.2.hasOrder = true) →
      (RuleText.readType ((if unsigned then ['u'] else []) ++ orderMark order ++ k.1)).toOption =
        some ⟨k.2, !unsigned, order, []⟩ := by
    decide
  have horder : l.order ∈ Endianness.all := by cases l.order <;> decide
  have hread := hall (l.keyword, t) h.keyword l.order horder l.unsigned h.unsigned h.order
  show RuleText.readType ((if l.unsigned then ['u'] else []) ++ orderMark l.order ++ l.keyword) = _
  cases hr : RuleText.readType
      ((if l.unsigned then ['u'] else []) ++ orderMark l.order ++ l.keyword) with
  | error e => rw [hr] at hread; cases hread
  | ok r => rw [hr] at hread; exact congrArg Except.ok (Option.some.inj hread)

theorem IsTyped.isField (h : l.IsTyped t) : l.typeText.IsField := by
  have hall : ∀ k ∈ ReadType.keywords, k.1 ≠ [] ∧ k.1.any isBlank = false := by decide
  obtain ⟨hne, hkeyword⟩ := hall (l.keyword, t) h.keyword
  have hmark : (orderMark l.order).any isBlank = false := by cases l.order <;> rfl
  have hsign : (if l.unsigned then ['u'] else []).any isBlank = false := by
    cases l.unsigned <;> rfl
  refine Text.isField_of_any (List.append_ne_nil_of_right_ne_nil _ hne) ?_
  rw [typeText, List.any_append, List.any_append, hsign, hmark, hkeyword]
  rfl

/-! ## The test -/

variable {offset : Offset} {operator : Operator} {test : Test}

theorem isTyped_integer {width : Width} (hk : (l.keyword, width) ∈ integerKeywords)
    (ho : width = .byte → l.order = .native) : l.IsTyped (.integer width) := by
  have hall : ∀ k ∈ integerKeywords, (k.1, ReadType.integer k.2) ∈ ReadType.keywords := by decide
  refine ⟨hall (l.keyword, width) hk, fun _ => rfl, ?_⟩
  intro horder
  cases width with
  | byte => exact absurd (ho rfl) horder
  | short | long | quad => rfl

theorem isTyped_date {scale : DateScale} {isLocal : Bool}
    (hk : (l.keyword, scale, isLocal) ∈ dateKeywords) : l.IsTyped (.date scale isLocal) := by
  have hall : ∀ k ∈ dateKeywords, (k.1, ReadType.date k.2.1 k.2.2) ∈ ReadType.keywords := by decide
  exact ⟨hall (l.keyword, scale, isLocal) hk, fun _ => rfl, fun _ => rfl⟩

theorem isTyped_bare {keyword : Text} (hk : l.keyword = keyword)
    (ht : (keyword, t) ∈ ReadType.keywords) (hu : l.unsigned = false) (ho : l.order = .native) :
    l.IsTyped t :=
  ⟨hk ▸ ht, fun h => absurd (hu.symm.trans h) nofun, fun h => absurd ho h⟩

theorem isTyped_string (hk : l.keyword = "string".toList) (hu : l.unsigned = false)
    (ho : l.order = .native) : l.IsTyped .string :=
  isTyped_bare hk (by decide) hu ho

theorem isTyped_guid (hk : l.keyword = "guid".toList) (hu : l.unsigned = false)
    (ho : l.order = .native) : l.IsTyped .guid :=
  isTyped_bare hk (by decide) hu ho

theorem Asks.isField (h : l.Asks offset operator test) : l.typeText.IsField := by
  cases h with
  | integer hk ho _ => exact (isTyped_integer hk ho).isField
  | date hk _ => exact (isTyped_date hk).isField
  | string hk hu ho => exact (isTyped_string hk hu ho).isField
  | guid hk hu ho => exact (isTyped_guid hk hu ho).isField

theorem Counts.readIntegerValue {bits : Nat} {n : Int} (h : l.Counts bits n) :
    readIntegerValue bits (some l.value) = .ok (some n) := by
  rw [RuleText.readIntegerValue, readInteger, h.value, ok_bind, if_pos ⟨h.low, h.high⟩]
  rfl

section
variable [RegexEngine]

theorem buildTest_integer {width : Width} {value : Option Text} {expected : Option Int}
    (h : readIntegerValue width.bits value = .ok expected) (signed : Bool) (e : Endianness)
    (extender : Text) : buildTest offset ⟨.integer width, signed, e, extender⟩ operator value =
      .ok (.integer (.make offset width signed e operator expected)) := by
  show (readIntegerValue width.bits value >>= fun n =>
    pure (Test.integer (.make offset width signed e operator n))) = _
  rw [h]
  rfl

theorem buildTest_date {scale : DateScale} {isLocal : Bool} {value : Option Text}
    {expected : Option Int} (h : readIntegerValue scale.width.bits value = .ok expected)
    (signed : Bool) (e : Endianness) (extender : Text) :
    buildTest offset ⟨.date scale isLocal, signed, e, extender⟩ operator value =
      .ok (.date (.make offset scale isLocal e operator expected)) := by
  show (readIntegerValue scale.width.bits value >>= fun n =>
    pure (Test.date (.make offset scale isLocal e operator n))) = _
  rw [h]
  rfl

/-- A type that compares is left with the relation and the value. -/
theorem IsTyped.readTest (h : l.IsTyped t) {valueText : Text} {value : Option Text}
    (hv : readTestValue valueText = .ok (operator, value)) (hd : t ≠ .default)
    (hs : ∀ keyword, t ≠ .unsupported keyword) :
    readTest offset l.typeText valueText =
      buildTest offset ⟨t, !l.unsigned, l.order, []⟩ operator value := by
  rw [RuleText.readTest, h.readType, ok_bind]
  cases t with
  | default => exact absurd rfl hd
  | unsupported keyword => exact absurd rfl (hs keyword)
  | integer width | real type | date scale isLocal | string | regex | guid =>
    show (readTestValue valueText >>= _) = _
    rw [hv]
    rfl

theorem Asks.readTest (h : l.Asks offset operator test) (hr : l.Relates operator)
    (hv : l.value ≠ []) :
    readTest offset l.typeText (l.relation ++ l.value) = .ok test := by
  have hvalue := readTestValue_eq hr.relation hv hr.separable
  cases h with
  | @integer width n hk ho hn =>
    rw [(isTyped_integer hk ho).readTest hvalue nofun nofun, buildTest_integer hn.readIntegerValue,
      IntegerTest.make, Option.map_some, Width.wrap_eq]
    cases l.unsigned <;> rfl
  | @date scale isLocal n hk hn =>
    rw [(isTyped_date hk).readTest hvalue nofun nofun, buildTest_date hn.readIntegerValue,
      DateTest.make, Option.map_some, Width.wrap_eq]
    rfl
  | string hk hu ho =>
    rw [(isTyped_string hk hu ho).readTest hvalue nofun nofun, buildTest, LiteralTest.make,
      if_neg (ne_any_of_relation hr.relation)]
    rfl
  | guid hk hu ho =>
    rw [(isTyped_guid hk hu ho).readTest hvalue nofun nofun, buildTest]
    rfl

end

/-! ## The line -/

/-- The fields of a line are its words. -/
theorem words_text (hl : l.IsLaid) (ho : readOffset l.offset = .ok offset)
    (ht : l.typeText.IsField) (hr : l.Relates operator) :
    l.text.words = (List.replicate l.depth depthMark ++ l.offset) :: l.typeText ::
      (l.relation ++ l.value) :: l.message.map Prod.snd := by
  obtain ⟨c, rest, hoffset, -⟩ := head_of_readOffset ho
  have hfirst : Text.IsField (List.replicate l.depth depthMark ++ l.offset) := by
    refine ⟨List.append_ne_nil_of_right_ne_nil _ (hoffset ▸ List.cons_ne_nil c rest), ?_⟩
    intro d hd
    rcases List.mem_append.mp hd with hd | hd
    · rw [List.eq_of_mem_replicate hd]
      rfl
    · exact hl.offset d hd
  have hlast : Text.IsField (l.relation ++ l.value) := by
    refine ⟨List.append_ne_nil_of_right_ne_nil _ hl.value.nonempty, ?_⟩
    intro d hd
    rcases List.mem_append.mp hd with hd | hd
    · exact unblank_of_relation hr.relation d hd
    · exact hl.value.unblank d hd
  refine Text.words_spaced hfirst ?_
  intro p hp
  rcases List.mem_cons.mp hp with rfl | hp
  · exact ⟨hl.gaps.1, ht⟩
  · rcases List.mem_cons.mp hp with rfl | hp
    · exact ⟨hl.gaps.2, hlast⟩
    · exact hl.message p hp

/-- Reading a line gives the depth of its marks, the test that its parts ask for, and the words of
its message with single blanks between them. -/
theorem readLine_text [RegexEngine] (hl : l.IsLaid) (ho : readOffset l.offset = .ok offset)
    (hr : l.Relates operator) (ht : l.Asks offset operator test) :
    readLine l.text = .ok ⟨l.depth, test, Text.join [' '] (l.message.map Prod.snd)⟩ := by
  obtain ⟨c, rest, hoffset, hc⟩ := head_of_readOffset ho
  have hmarks : (List.replicate l.depth depthMark ++ l.offset).takeWhile (· = depthMark) =
      List.replicate l.depth depthMark := by
    rw [hoffset]
    exact takeWhile_marks hc l.depth rest
  have hbehind : (List.replicate l.depth depthMark ++ l.offset).dropWhile (· = depthMark) =
      l.offset := by
    rw [hoffset]
    exact dropWhile_marks hc l.depth rest
  rw [readLine, words_text hl ho ht.isField hr]
  simp only [hmarks, hbehind, ho, ok_bind, ht.readTest hr hl.value.nonempty, pure_eq_ok,
    List.length_replicate]

/-- A pointer behind two marks, and a value that is wrapped. -/
theorem readLine_text_short : ∃ (l : LineText) (offset : Offset) (test : Test),
    l.IsLaid ∧ readOffset l.offset = .ok offset ∧ l.Relates .notEqual ∧
      l.Asks offset .notEqual test ∧ l.text = ">>(4.s+2)\tuleshort !-1  x86\t boot".toList ∧
      readLine l.text = .ok ⟨2, .integer ⟨.chain (.indirect 4 .short .little false 0) [.fixed 2],
        .short, false, .little, .notEqual, some 65535⟩, "x86 boot".toList⟩ := by
  let l : LineText := ⟨2, "(4.s+2)".toList, true, .little, "short".toList, ['!'], "-1".toList,
    (['\t'], [' ']), [([' ', ' '], "x86".toList), (['\t', ' '], "boot".toList)]⟩
  have hl : l.IsLaid := by
    refine ⟨Text.unblank_of_any rfl, Text.isField_of_any nofun rfl,
      ⟨Text.isGap_of_all nofun rfl, Text.isGap_of_all nofun rfl⟩, ?_⟩
    intro p hp
    rcases List.mem_cons.mp hp with rfl | hp
    · exact ⟨Text.isGap_of_all nofun rfl, Text.isField_of_any nofun rfl⟩
    · obtain rfl := List.mem_singleton.mp hp
      exact ⟨Text.isGap_of_all nofun rfl, Text.isField_of_any nofun rfl⟩
  have ho : readOffset l.offset =
      .ok (.chain (.indirect 4 .short .little false 0) [.fixed 2]) := rfl
  have hr : l.Relates .notEqual := ⟨by decide, trivial⟩
  have hvalue : l.Counts Width.short.bits (-1) := ⟨rfl, by decide, by decide⟩
  have hkeyword : (l.keyword, Width.short) ∈ integerKeywords := by decide
  have horder : Width.short = .byte → l.order = .native := nofun
  have ht : l.Asks (.chain (.indirect 4 .short .little false 0) [.fixed 2]) .notEqual
      (.integer ⟨_, .short, false, .little, .notEqual, some 65535⟩) :=
    .integer hkeyword horder hvalue
  exact ⟨l, _, _, hl, ho, hr, ht, rfl, readLine_text hl ho hr ht⟩

end LineText
end RuleText
end FileMagic
