import FileMagic.Builtin.Registry
import FileMagic.Proofs.Calm
import FileMagic.Proofs.Glue
import FileMagic.Proofs.IntegerTest
import FileMagic.Proofs.Recompile

/-! # What the rules for boot images print

Below the signatures of a boot image, rules test fields of two octets and print a number each. A
message reads from behind what was tested, and its conversions read four octets, so the number that
stands in the description is not that of the field: it is the one in the four octets behind it
(`probe_prints_behind_fields`). Behind the number of the video mode stands the signature of the boot
sector, and so the mode that is printed is below zero. -/

namespace FileMagic

namespace Conversion

/-- A conversion that says nothing about its layout, but for the mark of its base. -/
def plain (marked : Bool) (kind : ConversionKind) : Conversion :=
  ⟨if marked then ['#'] else [], [], none, kind⟩

/-- What a plain conversion prints of an integer. -/
def number (marked : Bool) (kind : ConversionKind) (n : Int) : Text :=
  Text.sign n ++ (if marked then (digitsOf n.natAbs kind).1 else []) ++ (digitsOf n.natAbs kind).2

theorem formatInteger_plain (marked : Bool) (kind : ConversionKind) (n : Int) :
    (plain marked kind).formatInteger n = .ok (number marked kind n) := by
  have hlayout : (plain marked kind).layout =
      .ok ⟨false, false, false, marked, false, 0, none⟩ := by
    cases marked <;> rfl
  rw [formatInteger, hlayout, ok_bind]
  by_cases hneg : n < 0
  · simp [layoutInteger, digitsLimit, number, Text.sign, hneg, Template.padStart_zero, plain]
  · simp [layoutInteger, digitsLimit, number, Text.sign, hneg, Template.padStart_zero, plain]

theorem number_of_nonneg (marked : Bool) (kind : ConversionKind) {n : Int} (h : 0 ≤ n) :
    number marked kind n =
      (if marked then (digitsOf n.toNat kind).1 else []) ++ (digitsOf n.toNat kind).2 := by
  have habs : n.natAbs = n.toNat := by omega
  rw [number, Text.sign, if_neg (Int.not_lt.mpr h), habs]
  rfl

theorem digitsOf_ne_nil (n : Nat) (kind : ConversionKind) : (digitsOf n kind).2 ≠ [] := by
  cases kind with
  | hexadecimal capital => cases capital <;> simp [digitsOf, Text.hexOfNat, Nat.toDigits_ne_nil]
  | _ => exact Nat.toDigits_ne_nil

theorem not_isBlank_of_mem_digitsOf {n : Nat} {kind : ConversionKind} {c : Char}
    (h : c ∈ (digitsOf n kind).2) : isBlank c = false := by
  have hdigit : ∀ d < 16, isBlank (Nat.digitChar d) = false ∧
      isBlank (Text.upperHexDigit (Nat.digitChar d)) = false := by
    decide
  have hdecimal : c ∈ Text.ofNat n → isBlank c = false := by
    intro hc
    obtain ⟨d, hd, rfl⟩ := Segment.digit_of_mem_toDigits (by decide) hc
    exact (hdigit d (by omega)).1
  cases kind with
  | hexadecimal capital =>
    cases capital with
    | false =>
      obtain ⟨d, hd, rfl⟩ := Segment.digit_of_mem_toDigits (by decide) h
      exact (hdigit d hd).1
    | true =>
      obtain ⟨o, ho, rfl⟩ := List.mem_map.mp h
      obtain ⟨d, hd, rfl⟩ := Segment.digit_of_mem_toDigits (by decide) ho
      exact (hdigit d hd).2
  | _ => exact hdecimal h

theorem number_ends (marked : Bool) (kind : ConversionKind) (n : Int) :
    ∃ c, (number marked kind n).getLast? = some c ∧ isBlank c = false := by
  have hne := digitsOf_ne_nil n.natAbs kind
  refine ⟨(digitsOf n.natAbs kind).2.getLast hne, ?_,
    not_isBlank_of_mem_digitsOf (List.getLast_mem hne)⟩
  rw [number, List.getLast?_append_of_ne_nil _ hne, List.getLast?_eq_some_getLast hne]

end Conversion

namespace Template

variable {s : Stream} {p : Int}

/-- A template with one plain conversion of an integer, between texts that are copied. -/
theorem render_number (hs : s.InMemory) (hp : p < Stream.positionLimit)
    {template before after : Text} {marked : Bool} {kind : ConversionKind}
    (hk : kind ≠ .percent ∧ kind ≠ .text)
    (ht : pieces template =
      before.map .char ++ .conversion (.plain marked kind) :: after.map .char)
    {octets more : Bytes} (hl : octets.length = integerWidth.octets)
    (hr : s.rest p = octets ++ more) :
    render s (some p) template none = .ok (before ++
      Conversion.number marked kind (integerWidth.decode (kind = .decimal true) .little octets) ++
        after) := by
  have hconversion : renderConversion s none (some p) (.plain marked kind) =
      .ok (Conversion.number marked kind
        (integerWidth.decode (kind = .decimal true) .little octets), some (p + octets.length)) := by
    have hinteger : renderInteger s (some p) (.plain marked kind) =
        .ok (Conversion.number marked kind
          (integerWidth.decode (kind = .decimal true) .little octets),
            some (p + octets.length)) := by
      have hkind : (Conversion.plain marked kind).kind = kind := rfl
      simp only [renderInteger, hkind, readInteger_of_rest hs hp hl hr, ProbeFault.ofRead_ok,
        ok_bind, Conversion.formatInteger_plain, pure_eq_ok]
    cases kind with
    | percent => exact absurd rfl hk.1
    | text => exact absurd rfl hk.2
    | decimal signed => exact hinteger
    | hexadecimal capital => exact hinteger
  rw [render, ht]
  clear ht
  induction before with
  | nil =>
    rw [List.map_nil, List.nil_append, renderPieces, hconversion, ok_bind]
    simp only [renderPieces_chars]
    rfl
  | cons c before ih =>
    rw [List.map_cons, List.cons_append, renderPieces, ih]
    rfl

end Template

namespace Rule

/-- A rule that matches has its say among its siblings. -/
theorem mem_walkChildren {s : Stream} {matched : Bool} {rules : List Rule} {messages : List Text}
    {r : Rule} {m : Text} (h : walkChildren s matched rules = .ok messages) (hr : r ∈ rules)
    (hf : r.test.isFallback = false) (he : r.test.evaluate s r.message = .ok (some m)) :
    m ∈ messages := by
  induction rules generalizing matched messages with
  | nil => cases hr
  | cons first rest ih =>
    obtain ⟨test, message, children⟩ := first
    rw [walkChildren] at h
    rcases List.mem_cons.mp hr with rfl | hr
    · rw [if_neg (by simp [hf]), walk, he, ok_bind] at h
      obtain ⟨own, hown, h⟩ := bind_eq_ok_iff.mp h
      obtain ⟨below, -, hown⟩ := bind_eq_ok_iff.mp hown
      cases hown
      obtain ⟨more, -, h⟩ := bind_eq_ok_iff.mp h
      cases h
      exact List.mem_append_left more List.mem_cons_self
    · split at h
      · exact ih h hr
      · obtain ⟨own, -, h⟩ := bind_eq_ok_iff.mp h
        cases own with
        | none => exact ih h hr
        | some own =>
          obtain ⟨more, hmore, h⟩ := bind_eq_ok_iff.mp h
          cases h
          exact List.mem_append_right own (ih hmore hr)

end Rule

namespace Text

theorem infix_strip {m t : Text} (hm : m ≠ []) (hfirst : m.head?.any isBlank = false)
    (hlast : m.getLast?.any isBlank = false) (h : m <:+: t) : m <:+: strip t := by
  obtain ⟨before, after, rfl⟩ := h
  have hdrop : ∃ start, (before ++ m ++ after).dropWhile isBlank = start ++ m ++ after := by
    rw [List.append_assoc, List.dropWhile_append]
    split
    · exact ⟨[], dropWhile_append_of_head hm hfirst after⟩
    · exact ⟨before.dropWhile isBlank, (List.append_assoc ..).symm⟩
  obtain ⟨start, hstart⟩ := hdrop
  have hends : (start ++ m).getLast?.any isBlank = false := by
    rwa [List.getLast?_append_of_ne_nil start hm]
  have hne : start ++ m ≠ [] := by simp [hm]
  rw [strip, hstart, dropEnd_append_of_getLast hne hends]
  exact ⟨start, dropEnd isBlank after, rfl⟩

end Text

namespace Description

/-- What a message with the mark adds is found in the description. -/
theorem infix_describe {messages : List Text} {body : Text} (hb : IsLabel body)
    (h : mark ++ body ∈ messages) : body <:+: Database.describe (some messages) := by
  obtain ⟨before, after, rfl⟩ := List.append_of_mem h
  have hjoined : body <:+: joined (before ++ (mark ++ body) :: after) := by
    have hown : joined (before ++ [mark ++ body]) = joined before ++ body := by
      rw [joined_concat, append_of_marked (List.prefix_append mark body), List.drop_left]
    have hprefix := joined_prefix (before ++ [mark ++ body]) after
    rw [hown, List.append_assoc] at hprefix
    exact (List.suffix_append (joined before) body).isInfix.trans hprefix.isInfix
  have hstrip := Text.infix_strip hb.ne_nil hb.first hb.last hjoined
  have hne : (ofMessages (before ++ (mark ++ body) :: after)).isEmpty = false := by
    refine List.isEmpty_eq_false_iff.mpr fun hnil => ?_
    rw [show Text.strip (joined _) = [] from hnil] at hstrip
    exact hb.ne_nil (List.infix_nil.mp hstrip)
  rw [Database.describe, hne]
  exact hstrip

end Description

namespace Stream

theorem Found.length_le {content : Bytes} {offset : Nat} {octets : Bytes}
    (h : Found content offset octets) (hne : octets ≠ []) :
    offset + octets.length ≤ content.length := by
  have hlen := congrArg List.length h
  have hpos := List.length_pos_of_ne_nil hne
  rw [List.length_take, List.length_drop] at hlen
  omega

end Stream

namespace Width

/-- The integer at an offset of content, least significant octet first. -/
def read (w : Width) (signed : Bool) (content : Bytes) (offset : Nat) : Int :=
  w.decode signed .little ((content.drop offset).take w.octets)

variable {content : Bytes} {offset : Nat}

/-- Four octets hold the two shorts that they are made of. -/
theorem read_long (h : offset + 4 ≤ content.length) : long.read false content offset =
    short.read false content offset + 65536 * short.read false content (offset + 2) := by
  have hlen : 4 ≤ (content.drop offset).length := by
    rw [List.length_drop]
    omega
  rw [read, read, read, ← List.drop_drop]
  match content.drop offset, hlen with
  | a :: b :: c :: d :: rest, _ =>
    have ha := a.toNat_lt
    have hb := b.toNat_lt
    have hc := c.toNat_lt
    have hd := d.toNat_lt
    simp only [decode, wrap, bits, octets, Endianness.order, ByteOrder.decode, Bool.false_and,
      Bool.false_eq_true, if_false, List.take_succ_cons, List.take_zero, List.drop_succ_cons,
      List.drop_zero, ByteOrder.decodeLittle, List.foldr_cons, List.foldr_nil]
    omega

theorem read_unsigned (w : Width) (content : Bytes) (offset : Nat) :
    0 ≤ w.read false content offset ∧ w.read false content offset < 2 ^ w.bits :=
  w.holds_wrap false _

/-- Four octets hold the number of a short when the first two do and the others are zero. -/
theorem read_long_eq_iff (h : offset + 4 ≤ content.length) {n : Int} (hn : n < 65536) :
    long.read false content offset = n ↔
      short.read false content offset = n ∧ short.read false content (offset + 2) = 0 := by
  have hlow := short.read_unsigned content offset
  have hhigh := short.read_unsigned content (offset + 2)
  simp only [bits, octets] at hlow hhigh
  rw [read_long h]
  omega

/-- The sign of four octets is that of the last two. -/
theorem read_long_neg (h : offset + 4 ≤ content.length)
    (hhigh : 2 ^ 15 ≤ short.read false content (offset + 2)) :
    long.read true content offset < 0 := by
  have hsigned : long.read true content offset =
      if 2 ^ (long.bits - 1) ≤ long.read false content offset then
        long.read false content offset - 2 ^ long.bits else long.read false content offset := by
    simp [read, decode, wrap]
  have hlow := (short.read_unsigned content offset).1
  have hbound := (long.read_unsigned content offset).2
  have hlong := read_long h
  rw [hsigned, if_pos (by simp only [bits, octets]; omega)]
  omega

end Width

namespace Builtin

/-- A rule that prints a number when a short is positive: where the short is, and what the message
is made of. -/
structure BootField where
  offset : Nat
  label : Text
  marked : Bool
  kind : ConversionKind
  conversion : Text
  unit : Text

namespace BootField

def signed (f : BootField) : Bool := f.kind = .decimal true

def message (f : BootField) : Text := Description.mark ++ f.label ++ f.conversion ++ f.unit

def rule (f : BootField) : Rule :=
  ⟨.ofInteger (.fixed f.offset) .short f.signed .little .greater 0, f.message, []⟩

/-- What the rule adds to a description: the number behind the field, with a label. -/
def prints (f : BootField) (content : Bytes) : Text :=
  f.label ++ Conversion.number f.marked f.kind
    (Width.long.read f.signed content (f.offset + 2)) ++ f.unit

def isRule (f : BootField) : Rule → Bool
  | ⟨.integer ⟨.fixed offset, .short, signed, .little, .greater, some 0⟩, message, []⟩ =>
    offset = f.offset && signed = f.signed && message = f.message
  | _ => false

theorem eq_rule {f : BootField} {r : Rule} (h : f.isRule r = true) : r = f.rule := by
  unfold isRule at h
  split at h
  · simp only [Bool.and_eq_true, decide_eq_true_eq] at h
    obtain ⟨⟨rfl, rfl⟩, rfl⟩ := h
    rw [rule]
    cases f.signed <;> rfl
  · cases h

/-- The message has one conversion, and reads as a part of a description. -/
structure WellFormed (f : BootField) : Prop where
  integral : f.kind ≠ .percent ∧ f.kind ≠ .text
  pieces : Template.pieces f.message = (Description.mark ++ f.label).map .char ++
    .conversion (.plain f.marked f.kind) :: f.unit.map .char
  label : ∃ rest, f.label = ',' :: rest
  unit : f.unit.getLast?.any isBlank = false

variable {f : BootField} {content : Bytes}

theorem WellFormed.isLabel (h : f.WellFormed) (content : Bytes) :
    Description.IsLabel (f.prints content) := by
  obtain ⟨rest, hlabel⟩ := h.label
  obtain ⟨c, hc, hblank⟩ := Conversion.number_ends f.marked f.kind
    (Width.long.read f.signed content (f.offset + 2))
  have hlast : (f.prints content).getLast?.any isBlank = false := by
    rw [prints]
    by_cases hunit : f.unit = []
    · rw [hunit, List.append_nil, List.getLast?_append, hc]
      exact hblank
    · rw [List.getLast?_append_of_ne_nil _ hunit]
      exact h.unit
  rw [prints, hlabel] at hlast ⊢
  exact ⟨nofun, rfl, rfl, hlast⟩

/-- A rule whose short is positive prints the number behind it. -/
theorem WellFormed.evaluate (h : f.WellFormed)
    (hl : (content.length : Int) < Stream.positionLimit)
    (hw : f.offset + 6 ≤ content.length) (hpos : 0 < Width.short.read f.signed content f.offset) :
    f.rule.test.evaluate (.ofBytes content) f.rule.message =
      .ok (some (Description.mark ++ f.prints content)) := by
  have hs := Stream.inMemory_ofBytes hl
  have hr : Offset.resolve (.ofBytes content) 0 (.fixed f.offset) =
      .ok (some (f.offset : Int)) := by
    rw [Offset.resolve, Int.zero_add]
  have haccepts : IntegerTest.Accepts .short f.signed .little .greater 0 content f.offset := by
    have hzero : Width.short.wrap f.signed 0 = 0 := by cases f.signed <;> rfl
    have hwhole : (f.offset : Int) + Width.short.octets ≤ content.length := by
      simp only [Width.octets]
      omega
    rw [IntegerTest.accepts_iff, hzero, Int.toNat_natCast]
    exact ⟨Int.natCast_nonneg _, hwhole, hpos⟩
  have hbehind : ((content.drop (f.offset + 2)).take 4).length = Template.integerWidth.octets := by
    rw [List.length_take, List.length_drop]
    exact Nat.min_eq_left (by omega)
  have hrest : (Stream.ofBytes content).rest (f.offset + 2 : Nat) =
      (content.drop (f.offset + 2)).take 4 ++ (content.drop (f.offset + 2)).drop 4 := by
    rw [Stream.rest_of_nonneg (by omega), Int.toNat_natCast, List.take_append_drop]
    rfl
  have hrender := Template.render_number hs (by omega) h.integral h.pieces hbehind hrest
  have hmatches := Test.evaluate_of_accepts hs (show Operator.greater ∈ Operator.all by decide) hr
    (by omega) haccepts f.message
  refine hmatches.trans ?_
  rw [show (f.offset : Int) + Width.short.octets = (f.offset + 2 : Nat) from rfl, hrender, prints,
    List.append_assoc, List.append_assoc, List.append_assoc]
  rfl

end BootField

def rootDevice : BootField :=
  ⟨508, ", root_dev ".toList, true, .hexadecimal true, "%#X".toList, []⟩

def swapDevice : BootField :=
  ⟨502, ", swap_dev ".toList, true, .hexadecimal true, "%#X".toList, []⟩

def ramdiskSize : BootField :=
  ⟨504, ", RAMdisksize ".toList, false, .decimal false, "%u".toList, " KB".toList⟩

def videoMode : BootField :=
  ⟨506, ", Video mode ".toList, false, .decimal true, "%d".toList, []⟩

def bootFields : List BootField := [rootDevice, swapDevice, ramdiskSize, videoMode]

theorem wellFormed_bootFields : ∀ f ∈ bootFields, f.WellFormed := by
  simp only [bootFields, List.forall_mem_cons]
  refine ⟨?_, ?_, ?_, ?_, nofun⟩
  all_goals exact ⟨⟨nofun, nofun⟩, rfl, ⟨_, rfl⟩, rfl⟩

/-- The signatures that the rules for boot images ask for, and the rules below both. -/
def kernelAsListed : List Rule → Bool
  | [kernel] =>
    kernel.leads 514 [0x48, 0x64, 0x72, 0x53] "Linux kernel".toList &&
      match kernel.children with
      | [boot] => boot.leads 510 [0x55, 0xaa] "x86 boot executable".toList &&
          bootFields.all fun f => boot.children.any f.isRule
      | _ => false
  | _ => false

/-- The rules below both signatures. -/
def bootRules (rules : List Rule) : List Rule :=
  (rules.flatMap (·.children)).flatMap (·.children)

/-- The rules for boot images have no expressions, and are as listed. -/
theorem kernel_checked_lenient : (kernelAsListed (@rulesOf .lenient kernelLines) &&
    (Forest.toEntries (@rulesOf .lenient kernelLines)).all fun e =>
      e.isCalm && e.test.expression?.isNone) = true := by
  decide +kernel

theorem rulesOf_kernelLines [RegexEngine] :
    rulesOf kernelLines = @rulesOf .lenient kernelLines := by
  obtain ⟨hlisted, hall⟩ := Bool.and_eq_true_iff.mp kernel_checked_lenient
  cases hlenient : @RuleText.compileLines .lenient kernelLines with
  | error fault =>
    simp only [rulesOf, hlenient] at hlisted
    cases hlisted
  | ok rules =>
    simp only [rulesOf, hlenient] at hall
    have hnone : (Forest.toEntries rules).all (·.test.expression?.isNone) = true := by
      refine List.all_eq_true.mpr fun e he => ?_
      exact (Bool.and_eq_true_iff.mp (List.all_eq_true.mp hall e he)).2
    simp only [rulesOf, RuleText.compileLines_of_no_expression hlenient hnone, hlenient]

theorem kernel_checked [RegexEngine] : kernelAsListed (rulesOf kernelLines) = true ∧
    (Forest.toEntries (rulesOf kernelLines)).all Entry.isCalm = true := by
  obtain ⟨hlisted, hall⟩ := Bool.and_eq_true_iff.mp kernel_checked_lenient
  rw [rulesOf_kernelLines]
  refine ⟨hlisted, List.all_eq_true.mpr fun e he => ?_⟩
  exact (Bool.and_eq_true_iff.mp (List.all_eq_true.mp hall e he)).1

/-- Under both signatures the rules for the fields are looked at. -/
theorem firstMatch_of_signatures {s : Stream} (hs : s.InMemory) {rules : List Rule}
    (h : kernelAsListed rules = true) (hboot : Stream.Found s.content 510 [0x55, 0xaa])
    (hheader : Stream.Found s.content 514 [0x48, 0x64, 0x72, 0x53]) :
    (∀ f ∈ bootFields, f.rule ∈ bootRules rules) ∧
      Database.firstMatch s rules = (Rule.walkChildren s false (bootRules rules)).map fun below =>
        some ("Linux kernel".toList :: "x86 boot executable".toList :: below) := by
  unfold kernelAsListed at h
  split at h
  · next kernel =>
    obtain ⟨lkernel, h⟩ := Bool.and_eq_true_iff.mp h
    split at h
    · next boot hchildren =>
      obtain ⟨lboot, hfields⟩ := Bool.and_eq_true_iff.mp h
      have hbelow : bootRules [kernel] = boot.children := by simp [bootRules, hchildren]
      rw [hbelow]
      refine ⟨fun f hf => ?_, ?_⟩
      · obtain ⟨r, hr, hrule⟩ := List.any_eq_true.mp (List.all_eq_true.mp hfields f hf)
        rwa [← BootField.eq_rule hrule]
      · rw [Database.firstMatch, Rule.walk_of_leads hs lkernel (by decide) (by decide),
          if_pos hheader, hchildren, Rule.walkChildren_of_leads hs lboot (by decide) (by decide),
          if_pos hboot]
        cases Rule.walkChildren s false boot.children <;> rfl
    · cases h
  · cases h

theorem probe_prints {rules : List Rule} (hlisted : kernelAsListed rules = true)
    (hcalm : (Forest.toEntries rules).all Entry.isCalm = true) {content : Bytes}
    (hl : (content.length : Int) < Stream.positionLimit)
    (hboot : Stream.Found content 510 [0x55, 0xaa])
    (hheader : Stream.Found content 514 [0x48, 0x64, 0x72, 0x53]) :
    ∃ description, (Database.mk rules).probe (.ofBytes content) = .ok description ∧
      ∀ f ∈ bootFields, 0 < Width.short.read f.signed content f.offset →
        f.prints content <:+: description := by
  have hs := Stream.inMemory_ofBytes hl
  obtain ⟨hrules, hfirst⟩ := firstMatch_of_signatures hs hlisted hboot hheader
  obtain ⟨messages, hmessages⟩ := Scan.matching_isOk (d := ⟨rules⟩) hs hcalm
  have hwalk := hmessages
  rw [Database.matching, hfirst] at hwalk
  obtain ⟨below, hbelow, rfl⟩ := map_eq_ok_iff.mp hwalk
  refine ⟨_, by rw [Database.probe, hmessages]; rfl, fun f hf hpos => ?_⟩
  have hlength := hheader.length_le (List.cons_ne_nil _ _)
  have hoffsets : ∀ f ∈ bootFields, f.offset ≤ 508 := by decide
  have hwf := wellFormed_bootFields f hf
  have hoffset : f.offset + 6 ≤ content.length := by
    have hle := hoffsets f hf
    simp only [List.length_cons, List.length_nil] at hlength
    omega
  have hmem := Rule.mem_walkChildren hbelow (hrules f hf) rfl (hwf.evaluate hl hoffset hpos)
  exact Description.infix_describe (hwf.isLabel content)
    (List.mem_cons_of_mem _ (List.mem_cons_of_mem _ hmem))

theorem prints_hexadecimal {f : BootField} (hm : f.marked = true) (hk : f.kind = .hexadecimal true)
    (hu : f.unit = []) (content : Bytes) : f.prints content = f.label ++ "0X".toList ++
      (Text.hexOfNat (Width.long.read false content (f.offset + 2)).toNat).map Char.toUpper := by
  have hsigned : f.signed = false := by rw [BootField.signed, hk]; rfl
  have hnonneg := (Width.long.read_unsigned content (f.offset + 2)).1
  rw [BootField.prints, hsigned, Conversion.number_of_nonneg _ _ hnonneg, hm, hk, hu,
    Segment.printed_hexadecimal]
  simp [Segment.printed, Conversion.digitsOf]

/-- A positive field has its label in the description, but the number behind the label is that of
the four octets behind the field. It is the number of the field in few cases, and in none for the
video mode. -/
theorem probe_prints_behind_fields [RegexEngine] {content : Bytes}
    (hl : (content.length : Int) < Stream.positionLimit)
    (hboot : Stream.Found content 510 [0x55, 0xaa])
    (hheader : Stream.Found content 514 [0x48, 0x64, 0x72, 0x53]) :
    (∃ description,
      (Database.mk (rulesOf kernelLines)).probe (.ofBytes content) = .ok description ∧
      (0 < Width.short.read false content 508 → ", root_dev 0X".toList ++
        (Text.hexOfNat (Width.long.read false content 510).toNat).map Char.toUpper <:+:
          description) ∧
      (0 < Width.short.read false content 502 → ", swap_dev 0X".toList ++
        (Text.hexOfNat (Width.long.read false content 504).toNat).map Char.toUpper <:+:
          description) ∧
      (0 < Width.short.read false content 504 → ", RAMdisksize ".toList ++
        Text.ofNat (Width.long.read false content 506).toNat ++ " KB".toList <:+: description) ∧
      (0 < Width.short.read true content 506 → ", Video mode ".toList ++
        Text.ofInt (Width.long.read true content 508) <:+: description)) ∧
    (Width.long.read false content 510 = Width.short.read false content 508 ↔
      Width.short.read false content 508 = 0xaa55 ∧ Width.short.read false content 512 = 0) ∧
    (Width.long.read false content 504 = Width.short.read false content 502 ↔
      Width.short.read false content 504 = Width.short.read false content 502 ∧
        Width.short.read false content 506 = 0) ∧
    (Width.long.read false content 506 = Width.short.read false content 504 ↔
      Width.short.read false content 506 = Width.short.read false content 504 ∧
        Width.short.read false content 508 = 0) ∧
    Width.long.read true content 508 < 0 := by
  have hlength := hheader.length_le nofun
  simp only [List.length_cons, List.length_nil] at hlength
  have hsignature : Width.short.read false content 510 = 0xaa55 :=
    congrArg (Width.short.decode false .little) hboot
  have hlt : ∀ offset, Width.short.read false content offset < 65536 := fun offset =>
    (Width.short.read_unsigned content offset).2
  refine ⟨?_, ?_, ?_, ?_, ?_⟩
  · obtain ⟨hlisted, hcalm⟩ := kernel_checked
    obtain ⟨description, hprobe, hprints⟩ := probe_prints hlisted hcalm hl hboot hheader
    simp only [bootFields, List.forall_mem_cons] at hprints
    obtain ⟨hroot, hswap, hdisk, hmode, -⟩ := hprints
    rw [prints_hexadecimal rfl rfl rfl] at hroot hswap
    refine ⟨description, hprobe, hroot, hswap, fun hpos => ?_, fun hpos => ?_⟩
    · have hnumber : Conversion.number false (.decimal false) (Width.long.read false content 506) =
          Text.ofNat (Width.long.read false content 506).toNat :=
        Conversion.number_of_nonneg false (.decimal false) (Width.long.read_unsigned content 506).1
      rw [← hnumber]
      exact hdisk hpos
    · have hnumber : Conversion.number false (.decimal true) (Width.long.read true content 508) =
          Text.ofInt (Width.long.read true content 508) := by
        simp [Conversion.number, Text.ofInt, Conversion.digitsOf]
      rw [← hnumber, ← List.append_nil (_ ++ _)]
      exact hmode hpos
  · rw [Width.read_long_eq_iff (by omega) (hlt 508), hsignature, eq_comm]
  · exact Width.read_long_eq_iff (by omega) (hlt 502)
  · exact Width.read_long_eq_iff (by omega) (hlt 504)
  · refine Width.read_long_neg (by omega) ?_
    rw [hsignature]
    decide

/-- A boot sector whose root device is 0x301, with a swap device, a disk and a mode. -/
def bootSector : Bytes :=
  List.replicate 502 0 ++ [5, 0, 7, 0, 2, 0, 1, 3, 0x55, 0xaa, 0, 0, 0x48, 0x64, 0x72, 0x53]

theorem probe_prints_behind_fields_bootSector :
    (bootSector.length : Int) < Stream.positionLimit ∧
      Stream.Found bootSector 510 [0x55, 0xaa] ∧
      Stream.Found bootSector 514 [0x48, 0x64, 0x72, 0x53] ∧
      ∃ description,
        (Database.mk (rulesOf kernelLines)).probe (.ofBytes bootSector) = .ok description ∧
        ", root_dev 0XAA55".toList <:+: description ∧ ", swap_dev 0X20007".toList <:+: description ∧
        ", RAMdisksize 50397186 KB".toList <:+: description ∧
        ", Video mode -1437269247".toList <:+: description := by
  have hl : (bootSector.length : Int) < Stream.positionLimit := by decide +kernel
  have hboot : Stream.Found bootSector 510 [0x55, 0xaa] := by decide +kernel
  have hheader : Stream.Found bootSector 514 [0x48, 0x64, 0x72, 0x53] := by decide +kernel
  obtain ⟨⟨description, hprobe, hroot, hswap, hdisk, hmode⟩, -⟩ :=
    probe_prints_behind_fields hl hboot hheader
  have hrootText : ", root_dev 0X".toList ++ (Text.hexOfNat
      (Width.long.read false bootSector 510).toNat).map Char.toUpper =
        ", root_dev 0XAA55".toList := by
    decide +kernel
  have hswapText : ", swap_dev 0X".toList ++ (Text.hexOfNat
      (Width.long.read false bootSector 504).toNat).map Char.toUpper =
        ", swap_dev 0X20007".toList := by
    decide +kernel
  have hdiskText : ", RAMdisksize ".toList ++ Text.ofNat
      (Width.long.read false bootSector 506).toNat ++ " KB".toList =
        ", RAMdisksize 50397186 KB".toList := by
    decide +kernel
  have hmodeText : ", Video mode ".toList ++ Text.ofInt (Width.long.read true bootSector 508) =
      ", Video mode -1437269247".toList := by
    decide +kernel
  refine ⟨hl, hboot, hheader, description, hprobe, ?_, ?_, ?_, ?_⟩
  · exact hrootText ▸ hroot (by decide +kernel)
  · exact hswapText ▸ hswap (by decide +kernel)
  · exact hdiskText ▸ hdisk (by decide +kernel)
  · exact hmodeText ▸ hmode (by decide +kernel)

/-- None of the fields is in the description. -/
theorem fields_not_printed :
    Width.short.read false bootSector 508 = 0x301 ∧ Width.short.read false bootSector 502 = 5 ∧
      Width.short.read false bootSector 504 = 7 ∧ Width.short.read true bootSector 506 = 2 ∧
      ∃ description,
        (Database.mk (rulesOf kernelLines)).probe (.ofBytes bootSector) = .ok description ∧
        ¬ ", root_dev 0X301".toList <:+: description ∧ ¬ ", swap_dev 0X5".toList <:+: description ∧
        ¬ ", RAMdisksize 7 KB".toList <:+: description ∧
        ¬ ", Video mode 2".toList <:+: description := by
  refine ⟨by decide +kernel, by decide +kernel, by decide +kernel, by decide +kernel,
    ("Linux kernel x86 boot executable, RW-rootFS, root_dev 0XAA55, swap_dev 0X20007, " ++
      "RAMdisksize 50397186 KB, Video mode -1437269247").toList, by decide +kernel, ?_⟩
  decide +kernel

end Builtin
end FileMagic
