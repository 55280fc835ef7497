import FileMagic.Proofs.BootImage
import FileMagic.Proofs.Pointer
import FileMagic.Proofs.Utf8

/-! # The version of a boot image

Under both signatures of a boot image the first rule below them asks for the version of the boot
protocol. Below it stand how the image is loaded and, behind a pointer, a rule for the octet that
the version starts with and the rule that prints it. Rules of which each matches report what those
below them do (`Rule.walk_of_evaluate`, `Rule.walkChildren_cons_some`), so that a description starts
with both signatures, how the image is loaded and its version (`probe_boot_version`). -/

namespace FileMagic

namespace Rule

variable {s : Stream}

/-- A rule that accepts its position without a word. -/
theorem walk_silent (hs : s.InMemory) {offset : Offset} {w : Width} {signed : Bool}
    {e : Endianness} {o : Operator} {n p : Int} (ho : o ∈ Operator.all)
    (hr : offset.resolve s 0 = .ok (some p)) (hp : p < Stream.positionLimit)
    (h : IntegerTest.Accepts w signed e o n s.content p) (children : List Rule) :
    walk s ⟨.ofInteger offset w signed e o n, [], children⟩ =
      (walkChildren s false children).map fun below => some ([] :: below) := by
  refine walk_of_evaluate ((Test.evaluate_of_accepts hs ho hr hp h []).trans ?_)
  rw [Template.render_of_not_mem List.not_mem_nil]
  rfl

end Rule

namespace Builtin

/-- Where the version is. -/
def versionOffset : Offset := .chain (.indirect 526 .short .little false 0) [.fixed 0x200]

def loaderRule (kind : Int) (message : Text) : Rule :=
  ⟨.ofInteger (.fixed 529) .byte true .native .equal kind, message, []⟩

def printRule : Rule := ⟨.fallback versionOffset, "\\b, version %s".toList, []⟩

def startRule : Rule :=
  ⟨.ofInteger versionOffset .byte true .native .greater 0, [], [printRule]⟩

def pointerRule : Rule :=
  ⟨.ofInteger (.fixed 526) .long false .little .greater 0, [], [startRule]⟩

/-- The rule for the version of the boot protocol. -/
def protocolRule : Rule :=
  ⟨.ofInteger (.fixed 518) .short false .little .greater 0x1ff, [],
    [loaderRule 0 "\\b, zImage".toList, loaderRule 1 "\\b, bzImage".toList, pointerRule]⟩

theorem bootRules_kernelLines [RegexEngine] :
    ∃ others, bootRules (rulesOf kernelLines) = protocolRule :: others := by
  rw [rulesOf_kernelLines]
  exact ⟨_, rfl⟩

/-- How an image is loaded, as a description says it. -/
def loader (octet : UInt8) : Text :=
  if octet = 0 then ", zImage".toList else if octet = 1 then ", bzImage".toList else []

/-- How an image is loaded, as the rules say it. -/
def loaderMessages (octet : UInt8) : List Text :=
  if octet = 0 then ["\\b, zImage".toList]
  else if octet = 1 then ["\\b, bzImage".toList] else []

/-- The position of the version. -/
def versionStart (content : Bytes) : Int := 0x200 + Width.short.read false content 526

/-- The octets of the version, up to a zero octet or the end. -/
def version (content : Bytes) : Bytes :=
  (content.drop (versionStart content).toNat).takeWhile (· ≠ 0)

def versionMessage (content : Bytes) : Text :=
  Description.mark ++ (", version ".toList ++ Utf8.decode (version content))

theorem versionStart_bounds (content : Bytes) :
    0 ≤ versionStart content ∧ versionStart content < Stream.positionLimit := by
  have hread := Width.short.read_unsigned content 526
  simp only [Width.bits, Width.octets] at hread
  rw [versionStart, Stream.positionLimit]
  omega

/-- The octet that a printable version starts with is positive. -/
theorem accepts_start {content : Bytes} (hne : version content ≠ [])
    (hprintable : ∀ o ∈ version content, 0x21 ≤ o ∧ o ≤ 0x7e) :
    IntegerTest.Accepts .byte true .native .greater 0 content (versionStart content) := by
  rw [version] at hne hprintable
  rcases hdrop : content.drop (versionStart content).toNat with _ | ⟨o, rest⟩
  · rw [hdrop] at hne
    exact absurd rfl hne
  · have ho : o ≠ 0 := by
      intro ho
      rw [hdrop, List.takeWhile_cons_of_neg (by simpa using ho)] at hne
      exact hne rfl
    rw [hdrop, List.takeWhile_cons_of_pos (by simpa using ho)] at hprintable
    obtain ⟨hlow, hhigh⟩ := hprintable o List.mem_cons_self
    have hlength := congrArg List.length hdrop
    rw [List.length_drop, List.length_cons] at hlength
    obtain ⟨hnonneg, -⟩ := versionStart_bounds content
    have hthere : versionStart content + Width.byte.octets ≤ content.length := by
      simp only [Width.octets]
      omega
    have hvalue : Width.byte.decode true .native [o] = o.toNat := by
      have hsmall : o.toNat ≤ 0x7e := UInt8.le_iff_toNat_le.mp hhigh
      simp [Width.decode, ByteOrder.decode, ByteOrder.decodeLittle, Endianness.order, Width.wrap,
        Width.bits, Width.octets]
      omega
    have hpos : 0x21 ≤ o.toNat := UInt8.le_iff_toNat_le.mp hlow
    rw [IntegerTest.accepts_iff, hdrop]
    refine ⟨hnonneg, hthere, ?_⟩
    show Width.byte.wrap true 0 < Width.byte.decode true .native [o]
    rw [hvalue, show Width.byte.wrap true 0 = 0 from rfl]
    omega

section Walk

variable {content : Bytes} (hl : (content.length : Int) < Stream.positionLimit)
  (hlong : 530 ≤ content.length)
include hl hlong

theorem resolve_versionOffset :
    versionOffset.resolve (.ofBytes content) 0 = .ok (some (versionStart content)) := by
  have hthere : (526 : Int) + Width.short.octets ≤ content.length := by
    simp only [Width.octets]
    omega
  rw [versionOffset, Offset.resolve_displaced,
    Offset.resolve_indirect _ _ _ hl (by decide) (by decide), if_pos hthere, versionStart,
    Int.add_comm]
  rfl

theorem walk_printRule :
    printRule.walk (.ofBytes content) = .ok (some [versionMessage content]) := by
  have hs := Stream.inMemory_ofBytes hl
  obtain ⟨hnonneg, hlt⟩ := versionStart_bounds content
  have hhit : printRule.test.hit (.ofBytes content) =
      .ok (some ⟨some (versionStart content), none⟩) := by
    rw [printRule, Test.hit, resolve_versionOffset hl hlong]
    rfl
  have hconversion := Template.renderConversion_text_bare hs hlt
  rw [Stream.rest_of_nonneg hnonneg] at hconversion
  have hrender : Template.render (.ofBytes content) (some (versionStart content))
      printRule.message none = .ok (versionMessage content) := by
    refine (Segment.renderPieces_literal _ _ "\\b, version ".toList "%s".toList).trans ?_
    have hletter := Template.renderPieces_letter
      (show ConversionKind.ofLetter? 's' = some .text from rfl) hconversion []
    refine (congrArg (Except.map _) hletter).trans ?_
    simp [Template.pieces, Template.piecesAfter, Template.renderPieces, Except.map, versionMessage,
      version, Description.mark, Stream.ofBytes]
  have hmatches : printRule.test.evaluate (.ofBytes content) printRule.message =
      .ok (some (versionMessage content)) := by
    rw [Test.evaluate_of_hit (by decide) hhit, hrender]
    rfl
  rw [Rule.walk_of_evaluate hmatches]
  rfl

theorem walk_loaderRule {kind : Int} {message : Text} {o : UInt8}
    (h : (loaderRule kind message).leads 529 [o] message = true) :
    (loaderRule kind message).walk (.ofBytes content) =
      .ok (if content[529] = o then some [message] else none) := by
  have hfound : Stream.Found content 529 [o] ↔ content[529] = o := by
    rw [Stream.Found, List.drop_eq_getElem_cons (by omega), List.length_singleton,
      List.take_succ_cons, List.take_zero, List.singleton_inj]
  have hsize : (([o] : Bytes).length : Int) < Stream.positionLimit := by
    rw [List.length_singleton]
    decide
  rw [Rule.walk_of_leads (Stream.inMemory_ofBytes hl) h (by decide) hsize]
  simp only [Stream.ofBytes, hfound]
  split <;> rfl

variable (hpointer : 0 < Width.long.read false content 526) (hne : version content ≠ [])
  (hprintable : ∀ o ∈ version content, 0x21 ≤ o ∧ o ≤ 0x7e)
include hpointer hne hprintable

/-- The rules from the pointer on report the version. -/
theorem walk_pointerRule :
    pointerRule.walk (.ofBytes content) = .ok (some [[], [], versionMessage content]) := by
  have hs := Stream.inMemory_ofBytes hl
  have haccepts : IntegerTest.Accepts .long false .little .greater 0 content 526 := by
    rw [IntegerTest.accepts_iff]
    refine ⟨by decide, ?_, hpointer⟩
    simp only [Width.octets]
    omega
  have hstart : startRule.walk (.ofBytes content) = .ok (some [[], versionMessage content]) := by
    rw [startRule, Rule.walk_silent hs (by decide) (resolve_versionOffset hl hlong)
      (versionStart_bounds content).2 (accepts_start hne hprintable),
      Rule.walkChildren_singleton (walk_printRule hl hlong)]
    rfl
  rw [pointerRule, Rule.walk_silent hs (by decide) rfl (by decide) haccepts,
    Rule.walkChildren_singleton hstart]
  rfl

theorem walk_protocolRule (hprotocol : 0x1ff < Width.short.read false content 518) :
    protocolRule.walk (.ofBytes content) =
      .ok (some ([] :: (loaderMessages content[529] ++ [[], [], versionMessage content]))) := by
  have hs := Stream.inMemory_ofBytes hl
  have haccepts : IntegerTest.Accepts .short false .little .greater 0x1ff content 518 := by
    rw [IntegerTest.accepts_iff]
    refine ⟨by decide, ?_, hprotocol⟩
    simp only [Width.octets]
    omega
  -- the pointer is due whichever of the two rules before it matches: it is no fallback
  have hzero := walk_loaderRule hl hlong
    (show (loaderRule 0 "\\b, zImage".toList).leads 529 [0] _ = true by decide)
  have hone := walk_loaderRule hl hlong
    (show (loaderRule 1 "\\b, bzImage".toList).leads 529 [1] _ = true by decide)
  have hpointers := walk_pointerRule hl hlong hpointer hne hprintable
  rw [protocolRule, Rule.walk_silent hs (by decide) rfl (by decide) haccepts]
  by_cases hz : content[529] = 0
  · have hnot : content[529] ≠ 1 := by
      rw [hz]
      decide
    rw [if_pos hz] at hzero
    rw [if_neg hnot] at hone
    rw [Rule.walkChildren_cons_some rfl hzero, Rule.walkChildren_cons_none hone,
      Rule.walkChildren_cons_some rfl hpointers, loaderMessages, if_pos hz]
    rfl
  · rw [if_neg hz] at hzero
    rw [Rule.walkChildren_cons_none hzero, loaderMessages, if_neg hz]
    by_cases ho : content[529] = 1
    · rw [if_pos ho] at hone ⊢
      rw [Rule.walkChildren_cons_some rfl hone, Rule.walkChildren_cons_some rfl hpointers]
      rfl
    · rw [if_neg ho] at hone ⊢
      rw [Rule.walkChildren_cons_none hone, Rule.walkChildren_singleton hpointers]
      rfl

end Walk

/-- The messages of both signatures and of the rules below them, put together. -/
theorem joined_version (content : Bytes) (octet : UInt8) :
    Description.joined ("Linux kernel".toList :: "x86 boot executable".toList :: [] ::
      (loaderMessages octet ++ [[], [], versionMessage content])) =
      "Linux kernel x86 boot executable".toList ++ loader octet ++
        (", version ".toList ++ Utf8.decode (version content)) := by
  have hbefore : Description.joined ("Linux kernel".toList :: "x86 boot executable".toList :: [] ::
      (loaderMessages octet ++ [[], []])) =
      "Linux kernel x86 boot executable".toList ++ loader octet := by
    rw [loaderMessages, loader]
    split
    · decide
    · split
      · decide
      · decide
  have hmarked : Description.mark <+: versionMessage content := List.prefix_append _ _
  have hconcat := Description.joined_concat ("Linux kernel".toList ::
    "x86 boot executable".toList :: [] :: (loaderMessages octet ++ [[], []]))
      (versionMessage content)
  rw [hbefore, Description.append_of_marked hmarked, versionMessage, List.drop_left] at hconcat
  rw [← hconcat, List.cons_append, List.cons_append, List.cons_append, List.append_assoc]
  rfl

/-- What a description of an image with a printable version starts with. -/
theorem isLabel_version (octet : UInt8) {b : Bytes} (hne : b ≠ [])
    (hprintable : ∀ o ∈ b, 0x21 ≤ o ∧ o ≤ 0x7e) :
    Description.IsLabel ("Linux kernel x86 boot executable".toList ++ loader octet ++
      (", version ".toList ++ b.map fun o => Char.ofNat o.toNat)) := by
  have hblank : ∀ n < 0x7f, 0x21 ≤ n → isBlank (Char.ofNat n) = false := by decide
  have hmap : b.map (fun o => Char.ofNat o.toNat) ≠ [] := by simpa using hne
  refine ⟨by simp, rfl, rfl, ?_⟩
  rw [List.getLast?_append_of_ne_nil _ (by simp), List.getLast?_append_of_ne_nil _ hmap,
    List.getLast?_map, List.getLast?_eq_some_getLast hne]
  obtain ⟨hlow, hhigh⟩ := hprintable _ (List.getLast_mem hne)
  have hlast : (b.getLast hne).toNat ≤ 0x7e := UInt8.le_iff_toNat_le.mp hhigh
  exact hblank _ (by omega) (UInt8.le_iff_toNat_le.mp hlow)

theorem probe_version {rules others : List Rule} {content : Bytes}
    (hlisted : kernelAsListed rules = true)
    (hcalm : (Forest.toEntries rules).all Entry.isCalm = true)
    (hrules : bootRules rules = protocolRule :: others)
    (hl : (content.length : Int) < Stream.positionLimit)
    (hboot : Stream.Found content 510 [0x55, 0xaa])
    (hheader : Stream.Found content 514 [0x48, 0x64, 0x72, 0x53])
    (hlong : 530 ≤ content.length) (hprotocol : 0x1ff < Width.short.read false content 518)
    (hpointer : 0 < Width.long.read false content 526) (hne : version content ≠ [])
    (hprintable : ∀ o ∈ version content, 0x21 ≤ o ∧ o ≤ 0x7e) :
    ∃ description, (Database.mk rules).probe (.ofBytes content) = .ok description ∧
      "Linux kernel x86 boot executable".toList ++ loader content[529] ++
        (", version ".toList ++ (version content).map fun o => Char.ofNat o.toNat) <+:
          description := by
  have hs := Stream.inMemory_ofBytes hl
  obtain ⟨-, hfirst⟩ := firstMatch_of_signatures hs hlisted hboot hheader
  obtain ⟨messages, hmessages⟩ := Scan.matching_isOk (d := ⟨rules⟩) hs hcalm
  have hwalk := hmessages
  have hversion := walk_protocolRule hl hlong hpointer hne hprintable hprotocol
  rw [Database.matching, hfirst, hrules, Rule.walkChildren_cons_some rfl hversion] at hwalk
  obtain ⟨below, hbelow, rfl⟩ := map_eq_ok_iff.mp hwalk
  obtain ⟨more, -, rfl⟩ := map_eq_ok_iff.mp hbelow
  refine ⟨_, by rw [Database.probe, hmessages]; rfl, ?_⟩
  have hascii : ∀ o ∈ version content, o.toNat < 0x80 := by
    intro o ho
    have hhigh : o.toNat ≤ 0x7e := UInt8.le_iff_toNat_le.mp (hprintable o ho).2
    omega
  refine (isLabel_version content[529] hne hprintable).prefix_describe_of_foldl ?_
  rw [← Utf8.decode_ascii hascii, ← joined_version content content[529]]
  exact Description.joined_prefix _ more

/-- A description starts with both signatures, how the image is loaded and its version. -/
theorem probe_boot_version [RegexEngine] {content : Bytes}
    (hl : (content.length : Int) < Stream.positionLimit)
    (hboot : Stream.Found content 510 [0x55, 0xaa])
    (hheader : Stream.Found content 514 [0x48, 0x64, 0x72, 0x53])
    (hlong : 530 ≤ content.length) (hprotocol : 0x1ff < Width.short.read false content 518)
    (hpointer : 0 < Width.long.read false content 526) (hne : version content ≠ [])
    (hprintable : ∀ o ∈ version content, 0x21 ≤ o ∧ o ≤ 0x7e) :
    ∃ description, (Database.mk (rulesOf kernelLines)).probe (.ofBytes content) = .ok description ∧
      "Linux kernel x86 boot executable".toList ++ loader content[529] ++
        (", version ".toList ++ (version content).map fun o => Char.ofNat o.toNat) <+:
          description := by
  obtain ⟨hlisted, hcalm⟩ := kernel_checked
  obtain ⟨others, hrules⟩ := bootRules_kernelLines
  exact probe_version hlisted hcalm hrules hl hboot hheader hlong hprotocol hpointer hne hprintable

/-- A header whose pointer leads back to its own signature: the version goes on with the version of
the protocol. -/
def bootHeader : Bytes :=
  List.replicate 510 0 ++ [0x55, 0xaa, 0, 0, 0x48, 0x64, 0x72, 0x53, 0x21, 0x21, 0, 0, 0, 0, 0, 0,
    2, 0, 0, 1]

theorem probe_boot_version_bootHeader :
    (bootHeader.length : Int) < Stream.positionLimit ∧
      Stream.Found bootHeader 510 [0x55, 0xaa] ∧
      Stream.Found bootHeader 514 [0x48, 0x64, 0x72, 0x53] ∧ 530 ≤ bootHeader.length ∧
      0x1ff < Width.short.read false bootHeader 518 ∧
      0 < Width.long.read false bootHeader 526 ∧ version bootHeader ≠ [] ∧
      (∀ o ∈ version bootHeader, 0x21 ≤ o ∧ o ≤ 0x7e) ∧
      ∃ description,
        (Database.mk (rulesOf kernelLines)).probe (.ofBytes bootHeader) = .ok description ∧
        "Linux kernel x86 boot executable, bzImage, version HdrS!!".toList <+: description := by
  have hl : (bootHeader.length : Int) < Stream.positionLimit := by decide +kernel
  have hboot : Stream.Found bootHeader 510 [0x55, 0xaa] := by decide +kernel
  have hheader : Stream.Found bootHeader 514 [0x48, 0x64, 0x72, 0x53] := by decide +kernel
  have hlong : 530 ≤ bootHeader.length := by decide +kernel
  have hprotocol : 0x1ff < Width.short.read false bootHeader 518 := by decide +kernel
  have hpointer : 0 < Width.long.read false bootHeader 526 := by decide +kernel
  have hversion : version bootHeader = [0x48, 0x64, 0x72, 0x53, 0x21, 0x21] := by decide +kernel
  have hne : version bootHeader ≠ [] := by
    rw [hversion]
    decide
  have hprintable : ∀ o ∈ version bootHeader, 0x21 ≤ o ∧ o ≤ 0x7e := by
    rw [hversion]
    exact List.all_iff_forall_prop.mp (by decide)
  obtain ⟨description, hprobe, hstart⟩ :=
    probe_boot_version hl hboot hheader hlong hprotocol hpointer hne hprintable
  have hoctet : bootHeader[529] = 1 := (List.getElem_eq_iff _).mpr (by decide +kernel)
  rw [hversion, hoctet] at hstart
  exact ⟨hl, hboot, hheader, hlong, hprotocol, hpointer, hne, hprintable, description, hprobe,
    hstart⟩

end Builtin
end FileMagic
