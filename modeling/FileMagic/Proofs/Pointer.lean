import FileMagic.Proofs.IntegerTest
import FileMagic.Proofs.Literal
import FileMagic.RuleText.Offset
import Mathlib.Data.Bool.AllAny

/-! # Pointers in rule texts

A pointer is written in parentheses: a base, a type behind a point or a comma, and a displacement
behind its sign (`PointerForm`). The characters that end a base are not in it, and what follows
tells a type from a displacement by its first character, so that a text is read in one way, the one
in which it was written (`pointerText?_body`, `body_of_pointerText?`). The offset that is read
leads to the integer at the base, moved by the displacement, or nowhere when its octets are not all
there (`readOffset_pointer`). The base never is: a numeral without a sign denotes no integer below
zero (`Numeral.nonneg_of_parse`). -/

namespace FileMagic

namespace ByteOrder

/-- A single octet is the same in every order. -/
theorem value_singleton (order : ByteOrder) (o : UInt8) : order.value [o] = o.toNat := by
  cases order <;> simp [value, place]

end ByteOrder

/-- The integer whose octets are at a position, if they are all there. -/
def integerAt? (content : Bytes) (p : Int) (w : Width) (signed : Bool) (e : Endianness) :
    Option Int :=
  if 0 ≤ p ∧ p + w.octets ≤ content.length
    then some (w.decode signed e ((content.drop p.toNat).take w.octets)) else none

namespace Offset

/-- A displacement moves what an offset leads to. -/
theorem resolve_displaced (o : Offset) (delta : Int) (s : Stream) :
    (chain o [.fixed delta]).resolve s 0 = (o.resolve s 0).map (·.map (· + delta)) := by
  rw [resolve]
  cases o.resolve s 0 with
  | error fault => rfl
  | ok position =>
    cases position with
    | none => rfl
    | some q => simp [Except.map, resolveStages, resolve]

/-- A pointer leads on from the integer at its base, or nowhere when there is none. -/
theorem resolve_indirect_integerAt? {content : Bytes} {r value : Int}
    (hl : (content.length : Int) < Stream.positionLimit) (hp : r + value < Stream.positionLimit)
    (w : Width) (signed : Bool) (e : Endianness) (delta : Int) :
    (indirect value w e signed delta).resolve (.ofBytes content) r =
      .ok ((integerAt? content (r + value) w signed e).map (· + delta)) := by
  have hs := Stream.inMemory_ofBytes hl
  have hall : (((Stream.ofBytes content).rest (r + value)).take w.octets).length = w.octets ↔
      0 ≤ r + value ∧ r + value + w.octets ≤ content.length :=
    Stream.length_take_rest_iff (by exact_mod_cast w.octets_pos)
  rw [resolve, hs.readAt_of_not_beyond (Stream.not_beyond hp w.octets_lt), ok_bind,
    Int.toNat_natCast, integerAt?]
  by_cases hwhole : 0 ≤ r + value ∧ r + value + w.octets ≤ content.length
  · rw [if_neg (not_not.mpr (hall.mpr hwhole)), if_pos hwhole, target_eq_decode (hall.mpr hwhole),
      Stream.rest_of_nonneg hwhole.1]
    rfl
  · rw [if_pos (fun h => hwhole (hall.mp h)), if_neg hwhole]
    rfl

theorem resolve_indirect {content : Bytes} {base : Int} (w : Width) (e : Endianness) (signed : Bool)
    (hl : (content.length : Int) < Stream.positionLimit) (hnonneg : 0 ≤ base)
    (hbase : base < Stream.positionLimit) :
    (indirect base w e signed 0).resolve (.ofBytes content) 0 =
      .ok (if base + w.octets ≤ content.length
        then some (w.decode signed e ((content.drop base.toNat).take w.octets)) else none) := by
  rw [resolve_indirect_integerAt? hl (by rwa [Int.zero_add]), Int.zero_add, integerAt?]
  simp only [hnonneg, true_and, Int.add_zero, Option.map_id']

end Offset

namespace RuleText

/-- The letters for the types of pointers. -/
def pointerLetters : Text := "bBcCsShHlLmqQ".toList

def letterWidth (letter : Char) : Width :=
  match letter.toLower with
  | 'b' | 'c' => .byte
  | 's' | 'h' => .short
  | 'q' => .quad
  | _ => .long

/-- Capital letters stand for the most significant octet first. -/
def letterOrder (letter : Char) : ByteOrder :=
  if letter = 'm' then .middle else if letter.isUpper then .big else .little

/-- A pointer as a rule writes it: the type is a letter behind its point or comma, and the
displacement a numeral behind its sign. -/
structure PointerForm where
  base : Text
  type : Option (Char × Char)
  delta : Option (Char × Text)

namespace PointerForm

structure WellFormed (f : PointerForm) : Prop where
  base_ne : f.base ≠ []
  base : ∀ c ∈ f.base, c ∉ ['.', ',', '+', '-', ')']
  type : ∀ t ∈ f.type, (t.1 = '.' ∨ t.1 = ',') ∧ t.2 ∈ pointerLetters
  delta : ∀ d ∈ f.delta, (d.1 = '+' ∨ d.1 = '-') ∧ d.2 ≠ [] ∧ ')' ∉ d.2

def typeText (f : PointerForm) : Text := f.type.elim [] fun t => [t.1, t.2]

def deltaText (f : PointerForm) : Text := f.delta.elim [] fun d => d.1 :: d.2

/-- What follows the opening parenthesis. -/
def body (f : PointerForm) : Text := f.base ++ (f.typeText ++ (f.deltaText ++ [')']))

def text (f : PointerForm) : Text := '(' :: f.body

def width (f : PointerForm) : Width := f.type.elim .long fun t => letterWidth t.2

def order (f : PointerForm) : ByteOrder := f.type.elim .little fun t => letterOrder t.2

def signed (f : PointerForm) : Bool := f.type.any fun t => t.1 = ','

/-- The numerals of a pointer can be read, as a base and a displacement. -/
structure Denotes (f : PointerForm) (base delta : Int) : Prop where
  base : Numeral.parse f.base = .ok base
  delta : match f.delta with
    | none => delta = 0
    | some (sign, digits) => ∃ n, Numeral.parse digits = .ok n ∧
        delta = if sign = '-' then -n else n

end PointerForm

theorem pointerType?_of_mem : ∀ c ∈ pointerLetters, ∃ e ∈ Endianness.all,
    pointerType? c = some (letterWidth c, e) ∧
      (letterWidth c = .byte ∨ e.order = letterOrder c) :=
  List.all_iff_forall_prop.mp (by decide)

theorem mem_pointerLetters {c : Char} {type : Width × Endianness}
    (h : pointerType? c = some type) : c ∈ pointerLetters := by
  unfold pointerType? at h
  split at h
  case h_14 => cases h
  all_goals decide

namespace PointerForm

variable {f : PointerForm}

/-- The displacement as it is read. -/
def readDelta (f : PointerForm) : Option (Bool × Text) := f.delta.map fun d => (d.1 = '-', d.2)

/-- A type that follows the base ends it, and so does what comes in its place. -/
theorem WellFormed.head_tail (h : f.WellFormed) :
    (f.typeText ++ (f.deltaText ++ [')'])).head?.any (fun c => !endsBase c) = false := by
  cases htype : f.type with
  | some t =>
    obtain ⟨hpoint, -⟩ := h.type _ htype
    rcases hpoint with hpoint | hpoint
    · simp [typeText, htype, hpoint, endsBase]
    · simp [typeText, htype, hpoint, endsBase]
  | none =>
    cases hdelta : f.delta with
    | some d =>
      obtain ⟨hsign, -⟩ := h.delta _ hdelta
      rcases hsign with hsign | hsign
      · simp [typeText, deltaText, htype, hdelta, hsign, endsBase]
      · simp [typeText, deltaText, htype, hdelta, hsign, endsBase]
    | none => simp [typeText, deltaText, htype, hdelta, endsBase]

/-- No displacement is taken for a type. -/
theorem WellFormed.deltaText_ne (h : f.WellFormed) (t : Text) :
    f.deltaText ++ [')'] ≠ '.' :: t ∧ f.deltaText ++ [')'] ≠ ',' :: t := by
  cases hdelta : f.delta with
  | some d =>
    obtain ⟨hsign, -⟩ := h.delta _ hdelta
    rcases hsign with hsign | hsign
    · simp [deltaText, hdelta, hsign]
    · simp [deltaText, hdelta, hsign]
  | none => simp [deltaText, hdelta]

/-- The type that is read may differ in the order of a single octet. -/
theorem WellFormed.splitType_eq (h : f.WellFormed) {rest : Text}
    (hrest : ∀ t, rest ≠ '.' :: t ∧ rest ≠ ',' :: t) : ∃ e,
      (f.width = .byte ∨ e.order = f.order) ∧
        splitType (f.typeText ++ rest) = some ((f.width, e), f.signed, rest) := by
  cases htype : f.type with
  | none =>
    refine ⟨.little, .inr (by rw [order, htype]; rfl), ?_⟩
    rw [typeText, width, signed, htype]
    unfold splitType
    split
    · next heq => exact absurd heq (hrest _).1
    · next heq => exact absurd heq (hrest _).2
    · rfl
  | some t =>
    obtain ⟨point, letter⟩ := t
    obtain ⟨hpoint, hletter⟩ := h.type _ htype
    obtain ⟨e, -, hread, horder⟩ := pointerType?_of_mem letter hletter
    refine ⟨e, by rw [width, order, htype]; exact horder, ?_⟩
    rcases hpoint with rfl | rfl
    · simp [splitType, hread, typeText, width, signed, htype]
    · simp [splitType, hread, typeText, width, signed, htype]

theorem WellFormed.splitDelta_eq (h : f.WellFormed) :
    splitDelta (f.deltaText ++ [')']) = some (f.readDelta, [')']) := by
  cases hdelta : f.delta with
  | none =>
    rw [deltaText, readDelta, hdelta]
    rfl
  | some d =>
    obtain ⟨sign, digits⟩ := d
    obtain ⟨hsign, hne, hclose⟩ := h.delta _ hdelta
    have hdigits : ∀ c ∈ digits, (!decide (c = ')')) = true := by
      intro c hc
      have hcne : c ≠ ')' := fun heq => hclose (heq ▸ hc)
      simpa using hcne
    have htake : (digits ++ [')']).takeWhile _ = digits := Text.takeWhile_run hdigits rfl
    have hdrop : (digits ++ [')']).dropWhile _ = [')'] := Text.dropWhile_run hdigits rfl
    have hempty : digits.isEmpty = false := List.isEmpty_eq_false_iff.mpr hne
    rcases hsign with rfl | rfl
    · simp [splitDelta, htake, hdrop, hempty, deltaText, readDelta, hdelta]
    · simp [splitDelta, htake, hdrop, hempty, deltaText, readDelta, hdelta]

/-- A pointer is read as it was written. -/
theorem WellFormed.pointerText?_body (h : f.WellFormed) : ∃ e,
    (f.width = .byte ∨ e.order = f.order) ∧
      pointerText? f.body = some ⟨f.base, f.width, e, f.signed, f.readDelta⟩ := by
  have hbase : ∀ c ∈ f.base, (!endsBase c) = true := by
    intro c hc
    have hfree := h.base c hc
    simp only [List.mem_cons, List.not_mem_nil, or_false, not_or] at hfree
    simp [endsBase, hfree]
  have hempty : f.base.isEmpty = false := List.isEmpty_eq_false_iff.mpr h.base_ne
  obtain ⟨e, horder, htype⟩ := h.splitType_eq h.deltaText_ne
  refine ⟨e, horder, ?_⟩
  rw [pointerText?, body, Text.takeWhile_run hbase h.head_tail,
    Text.dropWhile_run hbase h.head_tail, htype]
  simp [h.splitDelta_eq, hempty]

end PointerForm

/-- What is read as a type stands before what follows. -/
theorem splitType_some {t rest : Text} {type : Width × Endianness} {signed : Bool}
    (h : splitType t = some (type, signed, rest)) : ∃ written : Option (Char × Char),
      (∀ w ∈ written, (w.1 = '.' ∨ w.1 = ',') ∧ w.2 ∈ pointerLetters) ∧
        t = (written.elim [] fun w => [w.1, w.2]) ++ rest := by
  unfold splitType at h
  split at h
  · next letter rest' =>
    obtain ⟨type', hread, heq⟩ := Option.map_eq_some_iff.mp h
    cases heq
    exact ⟨some ('.', letter), by simpa using mem_pointerLetters hread, rfl⟩
  · next letter rest' =>
    obtain ⟨type', hread, heq⟩ := Option.map_eq_some_iff.mp h
    cases heq
    exact ⟨some (',', letter), by simpa using mem_pointerLetters hread, rfl⟩
  · cases h
    exact ⟨none, by simp, rfl⟩

/-- What is read as a displacement stands before what follows. -/
theorem splitDelta_some {t rest : Text} {delta : Option (Bool × Text)}
    (h : splitDelta t = some (delta, rest)) : ∃ written : Option (Char × Text),
      (∀ w ∈ written, (w.1 = '+' ∨ w.1 = '-') ∧ w.2 ≠ [] ∧ ')' ∉ w.2) ∧
        delta = (written.map fun w => (decide (w.1 = '-'), w.2)) ∧
        t = (written.elim [] fun w => w.1 :: w.2) ++ rest := by
  have hfree : ∀ digits : Text, ')' ∉ digits.takeWhile (· ≠ ')') := by
    intro digits hmem
    have hne := List.all_eq_true.mp List.all_takeWhile _ hmem
    simp at hne
  unfold splitDelta at h
  simp only at h
  split at h
  · next digits =>
    split at h
    · cases h
    · next hne =>
      cases h
      refine ⟨some ('+', digits.takeWhile (· ≠ ')')), ?_, rfl, ?_⟩
      · rintro w hw
        cases Option.mem_some.mp hw
        exact ⟨by simp, by simpa using hne, hfree digits⟩
      · exact congrArg ('+' :: ·) (List.takeWhile_append_dropWhile).symm
  · next digits =>
    split at h
    · cases h
    · next hne =>
      cases h
      refine ⟨some ('-', digits.takeWhile (· ≠ ')')), ?_, rfl, ?_⟩
      · rintro w hw
        cases Option.mem_some.mp hw
        exact ⟨by simp, by simpa using hne, hfree digits⟩
      · exact congrArg ('-' :: ·) (List.takeWhile_append_dropWhile).symm
  · cases h
    exact ⟨none, by simp, rfl, rfl⟩

/-- What is read as a pointer was written as one. -/
theorem body_of_pointerText? {t : Text} {p : PointerText} (h : pointerText? t = some p)
    (hline : '\n' ∉ t) : ∃ f : PointerForm, f.WellFormed ∧ t = f.body ∧ p.base = f.base ∧
      p.delta = f.readDelta := by
  unfold pointerText? at h
  obtain ⟨⟨⟨width, endianness⟩, signed, afterType⟩, htype, h⟩ := Option.bind_eq_some_iff.mp h
  obtain ⟨⟨delta, afterDelta⟩, hdelta, h⟩ := Option.bind_eq_some_iff.mp h
  obtain ⟨type, htypeForm, htypeText⟩ := splitType_some htype
  obtain ⟨written, hdeltaForm, hread, hdeltaText⟩ := splitDelta_some hdelta
  have hwhole : t = t.takeWhile (fun c => !endsBase c) ++
      ((type.elim [] fun w => [w.1, w.2]) ++
        ((written.elim [] fun w => w.1 :: w.2) ++ afterDelta)) := by
    rw [← hdeltaText, ← htypeText, List.takeWhile_append_dropWhile]
  simp only at h
  split at h
  · cases h
  · next hend =>
    cases h
    simp only [Bool.or_eq_true, Bool.not_eq_true', not_or, Bool.not_eq_true,
      Bool.not_eq_false, List.isEmpty_eq_false_iff, decide_eq_true_eq] at hend
    obtain ⟨hbase, hclose⟩ := hend
    -- a line feed could stand behind the parenthesis
    have hafter : afterDelta = [')'] := by
      refine hclose.resolve_right fun hfeed => hline ?_
      rw [hwhole, hfeed]
      simp
    rw [hafter] at hwhole
    refine ⟨⟨_, type, written⟩, ⟨hbase, ?_, htypeForm, hdeltaForm⟩, hwhole, rfl, hread⟩
    intro c hc
    have hfree := List.all_eq_true.mp List.all_takeWhile _ hc
    simpa [endsBase, and_assoc] using hfree

namespace PointerForm

variable {f : PointerForm} {base delta : Int}

/-- A pointer that is read has numerals that can be read. -/
theorem denotes_of_read {p : PointerText} {o : Offset} (h : p.read = .ok o)
    (hbase : p.base = f.base) (hdelta : p.delta = f.readDelta) :
    ∃ base delta, f.Denotes base delta := by
  unfold PointerText.read at h
  obtain ⟨b, hb, h⟩ := bind_eq_ok_iff.mp h
  rw [hbase] at hb
  cases hwritten : f.delta with
  | none => exact ⟨b, 0, ⟨hb, by rw [hwritten]⟩⟩
  | some d =>
    rw [hdelta, readDelta, hwritten] at h
    obtain ⟨n, hn, -⟩ := bind_eq_ok_iff.mp h
    exact ⟨b, _, ⟨hb, by rw [hwritten]; exact ⟨n, hn, rfl⟩⟩⟩

/-- The pointer that is read leads from the integer at its base on by its displacement. -/
theorem Denotes.read (h : f.Denotes base delta) (e : Endianness) : ∃ o,
    PointerText.read ⟨f.base, f.width, e, f.signed, f.readDelta⟩ = .ok o ∧
      ∀ s, o.resolve s 0 =
        ((Offset.indirect base f.width e f.signed 0).resolve s 0).map (·.map (· + delta)) := by
  have hdelta := h.delta
  unfold PointerText.read
  simp only [h.base, ok_bind]
  cases hwritten : f.delta with
  | none =>
    rw [hwritten] at hdelta
    simp only at hdelta
    refine ⟨_, by rw [readDelta, hwritten]; rfl, fun s => ?_⟩
    rw [hdelta]
    cases (Offset.indirect base f.width e f.signed 0).resolve s 0 with
    | error fault => rfl
    | ok position =>
      cases position with
      | none => rfl
      | some q => simp [Except.map]
  | some d =>
    rw [hwritten] at hdelta
    obtain ⟨n, hn, hdelta⟩ := hdelta
    simp only [readDelta, hwritten, Option.map_some, hn, ok_bind, pure_eq_ok, decide_eq_true_eq]
    refine ⟨_, rfl, fun s => ?_⟩
    rw [← hdelta, Offset.resolve_displaced]

end PointerForm

/-- The octet of a byte is the same in every order. -/
theorem decode_eq_wrap {w : Width} {order : ByteOrder} {e : Endianness}
    (h : w = .byte ∨ e.order = order) (signed : Bool) {b : Bytes} (hb : b.length = w.octets) :
    w.decode signed e b = w.wrap signed (order.value b) := by
  rw [Width.decode, ByteOrder.decode_eq_value]
  rcases h with rfl | rfl
  · obtain ⟨o, rfl⟩ := List.length_eq_one_iff.mp hb
    rw [ByteOrder.value_singleton, ByteOrder.value_singleton]
  · rfl

namespace PointerForm

variable {f : PointerForm} {base delta : Int}

theorem WellFormed.base_nonneg (h : f.WellFormed) (hread : f.Denotes base delta) : 0 ≤ base := by
  refine Numeral.nonneg_of_parse hread.base fun c hc => ?_
  have hfree := h.base c hc
  simp only [List.mem_cons, List.not_mem_nil, or_false, not_or] at hfree
  exact ⟨hfree.2.2.1, hfree.2.2.2.1⟩

/-- The offset of a pointer leads from the integer at its base on by its displacement. -/
theorem WellFormed.readOffset_text (h : f.WellFormed) (hread : f.Denotes base delta) :
    ∃ o e, (f.width = .byte ∨ e.order = f.order) ∧ readOffset f.text = .ok o ∧
      ∀ s, o.resolve s 0 =
        ((Offset.indirect base f.width e f.signed 0).resolve s 0).map (·.map (· + delta)) := by
  obtain ⟨e, horder, hbody⟩ := h.pointerText?_body
  obtain ⟨o, ho, hresolve⟩ := hread.read e
  refine ⟨o, e, horder, ?_, hresolve⟩
  simp only [readOffset, text, hbody, ho]

end PointerForm

/-- Only pointers can be read behind an opening parenthesis. -/
theorem form_of_readOffset {rest : Text} {o : Offset} (h : readOffset ('(' :: rest) = .ok o)
    (hline : '\n' ∉ rest) : ∃ (f : PointerForm) (base delta : Int),
      f.WellFormed ∧ f.Denotes base delta ∧ '(' :: rest = f.text := by
  simp only [readOffset] at h
  split at h
  · next p hp =>
    obtain ⟨f, hform, rfl, hbase, hdelta⟩ := body_of_pointerText? hp hline
    obtain ⟨base, delta, hread⟩ := PointerForm.denotes_of_read h hbase hdelta
    exact ⟨f, base, delta, hform, hread, rfl⟩
  · cases h

/-- Which pointers can be read, and where they lead. -/
theorem readOffset_pointer {text : Text} (hblank : ∀ c ∈ text, isBlank c = false)
    (hopen : text.head? = some '(') :
    ((∃ o, readOffset text = .ok o) ↔
      ∃ (f : PointerForm) (base delta : Int), f.WellFormed ∧ f.Denotes base delta ∧ text = f.text) ∧
    ∀ (f : PointerForm) (base delta : Int), f.WellFormed → f.Denotes base delta → text = f.text →
      ∃ o, readOffset text = .ok o ∧ 0 ≤ base ∧
        ∀ content : Bytes, (content.length : Int) < Stream.positionLimit →
          base < Stream.positionLimit →
          (o.resolve (.ofBytes content) 0 = .ok none ↔ content.length < base + f.width.octets) ∧
          (base + f.width.octets ≤ content.length → ∃ v,
            f.width.Represents f.signed
              (f.order.value ((content.drop base.toNat).take f.width.octets)) v ∧
            o.resolve (.ofBytes content) 0 = .ok (some (v + delta))) := by
  refine ⟨⟨?_, ?_⟩, ?_⟩
  · rintro ⟨o, h⟩
    cases text with
    | nil => cases hopen
    | cons c rest =>
      cases hopen
      have hline : '\n' ∉ rest := fun hmem =>
        absurd (hblank _ (List.mem_cons_of_mem _ hmem)) (by decide)
      exact form_of_readOffset h hline
  · rintro ⟨f, base, delta, hform, hread, rfl⟩
    obtain ⟨o, e, -, ho, -⟩ := hform.readOffset_text hread
    exact ⟨o, ho⟩
  · rintro f base delta hform hread rfl
    obtain ⟨o, e, horder, ho, hresolve⟩ := hform.readOffset_text hread
    have hnonneg := hform.base_nonneg hread
    refine ⟨o, ho, hnonneg, fun content hl hbase => ⟨?_, fun hwhole => ?_⟩⟩
    · rw [hresolve, Offset.resolve_indirect _ _ _ hl hnonneg hbase]
      split
      · next hwhole => simp [Except.map, hwhole]
      · next hshort => simpa [Except.map] using hshort
    · have hoctets : ((content.drop base.toNat).take f.width.octets).length = f.width.octets := by
        rw [List.length_take, List.length_drop]
        omega
      refine ⟨_, Width.represents_iff.mpr rfl, ?_⟩
      rw [hresolve, Offset.resolve_indirect _ _ _ hl hnonneg hbase, if_pos hwhole,
        decode_eq_wrap horder f.signed hoctets]
      rfl

/-- The signed short, most significant octet first, that ends the content, moved on by what two
signs make of a displacement. -/
theorem readOffset_pointer_two_signs :
    let text : Text := "(0x1,S--2)".toList
    let f : PointerForm := ⟨"0x1".toList, some (',', 'S'), some ('-', "-2".toList)⟩
    (∀ c ∈ text, isBlank c = false) ∧ text.head? = some '(' ∧ f.WellFormed ∧ f.Denotes 1 2 ∧
      text = f.text ∧ ∃ o, readOffset text = .ok o ∧
        o.resolve (.ofBytes [7, 0xff, 0xfe]) 0 = .ok (some 0) ∧
        o.resolve (.ofBytes [7, 0xff]) 0 = .ok none := by
  intro text f
  have hblank : ∀ c ∈ text, isBlank c = false := List.all_iff_forall_prop.mp (by decide)
  have hform : f.WellFormed := by
    refine ⟨by decide, List.all_iff_forall_prop.mp (by decide), ?_, ?_⟩
    · rintro t ht
      cases ht
      decide
    · rintro d hd
      cases hd
      decide
  have hread : f.Denotes 1 2 := ⟨by decide +kernel, -2, by decide +kernel, rfl⟩
  have hspec := readOffset_pointer hblank (by decide)
  obtain ⟨o, ho, -, hresolve⟩ := hspec.2 f 1 2 hform hread (by decide)
  refine ⟨hblank, by decide, hform, hread, by decide, o, ho, ?_, ?_⟩
  · obtain ⟨v, hv, hat⟩ := (hresolve [7, 0xff, 0xfe] (by decide) (by decide)).2 (by decide)
    have hvalue : v = -2 := (Width.represents_iff.mp hv).trans (by decide)
    rw [hat, hvalue]
    rfl
  · exact (hresolve [7, 0xff] (by decide) (by decide)).1.mpr (by decide)

end RuleText
end FileMagic
