import FileMagic.Pattern.Engine
import FileMagic.Proofs.Label
import FileMagic.Proofs.Record
import FileMagic.Proofs.Truncation
import FileMagic.RuleText.Source

/-! # Where messages are glued

A message stands in the description whole, behind a space, exactly when it does not start with the
mark (`append_eq_iff`). The mark is looked for in the message, after its template has been rendered.
The beginning of a template, up to its first conversion, is also the beginning of the message
(`lead_prefix_render`), and so the rule decides where it already differs from the mark or contains
it. A template that leaves its beginning to a conversion leaves the decision to the content: what a
rule reads from it is glued when the content says so (`whole_iff_unmarked`). -/

namespace FileMagic

namespace Description

/-- Messages put together, before blanks at the ends are cut off. -/
def joined (messages : List Text) : Text := messages.foldl append []

/-- What stands between a text and the message after it. -/
def gap (d : Text) : Text := if d.isEmpty then [] else [' ']

theorem joined_concat (messages : List Text) (m : Text) :
    joined (messages ++ [m]) = append (joined messages) m := by
  rw [joined, List.foldl_append]
  rfl

theorem joined_prefix (messages more : List Text) :
    joined messages <+: joined (messages ++ more) := by
  rw [joined, joined, List.foldl_append]
  exact prefix_foldl more _

theorem isPrefixOf_mark_eq_false_iff {m : Text} : mark.isPrefixOf m = false ↔ ¬ mark <+: m := by
  rw [Bool.eq_false_iff, Ne, List.isPrefixOf_iff_prefix]

theorem append_of_marked {m : Text} (h : mark <+: m) (d : Text) :
    append d m = d ++ m.drop mark.length := by
  have hne : m ≠ [] := by
    rintro rfl
    exact absurd (List.prefix_nil.mp h) (by decide)
  simp [append, hne, List.isPrefixOf_iff_prefix.mpr h]

theorem append_of_unmarked {m : Text} (hm : m ≠ []) (h : ¬ mark <+: m) (d : Text) :
    append d m = d ++ gap d ++ m := by
  have hmark := isPrefixOf_mark_eq_false_iff.mpr h
  cases d with
  | nil => simp [append, gap, hm, hmark]
  | cons c d => simp [append, gap, hm, hmark]

theorem append_eq_iff {d m : Text} (hm : m ≠ []) :
    append d m = d ++ gap d ++ m ↔ ¬ mark <+: m := by
  refine ⟨fun h hmark => ?_, fun h => append_of_unmarked hm h d⟩
  have hshort : mark.length ≤ m.length := hmark.length_le
  have hlen := congrArg List.length (h.symm.trans (append_of_marked hmark d))
  simp only [List.length_append, List.length_drop, mark, List.length_cons, List.length_nil]
    at hlen hshort
  omega

end Description

namespace Template

/-- What stands before the first conversion. -/
def lead (template : Text) : Text := template.takeWhile (· ≠ '%')

theorem lead_prefix_render {s : Stream} {position : Option Int} {shown : Option Text}
    {template out : Text} (h : render s position template shown = .ok out) :
    lead template <+: out := by
  induction template generalizing out with
  | nil => exact List.nil_prefix
  | cons c rest ih =>
    by_cases hc : c = '%'
    · simp [lead, hc]
    · rw [render, pieces_char hc, renderPieces] at h
      obtain ⟨t, ht, hout⟩ := bind_eq_ok_iff.mp h
      cases hout
      rw [lead, List.takeWhile_cons_of_pos (by simpa using hc)]
      exact List.cons_prefix_cons.mpr ⟨rfl, ih ht⟩

/-- The text at a position, up to a zero octet or the end. -/
theorem renderConversion_text_bare {s : Stream} (hs : s.InMemory) {p : Int}
    (hp : p < Stream.positionLimit) :
    renderConversion s none (some p) (bareConversion .text) =
      .ok (Utf8.decode ((s.rest p).takeWhile (· ≠ 0)),
        some (p + Conversion.textLength s p)) := by
  have hkind : (bareConversion .text).kind = .text := rfl
  simp only [renderConversion, hkind, renderText, readText_eq hs hp, ProbeFault.ofRead_ok, ok_bind,
    formatText_bare, pure_eq_ok]

end Template

namespace Test

/-- The message of a test that matches is its template, rendered somewhere. -/
theorem render_of_evaluate {s : Stream} {t : Test} {template out : Text}
    (h : t.evaluate s template = .ok (some out)) :
    ∃ position shown, Template.render s position template shown = .ok out := by
  obtain ⟨u, -, h⟩ := bind_eq_ok_iff.mp h
  obtain ⟨hit, -, h⟩ := bind_eq_ok_iff.mp h
  cases hit with
  | none => cases h
  | some hit =>
    obtain ⟨t, ht, he⟩ := map_eq_ok_iff.mp h
    cases he
    exact ⟨hit.position, hit.shown, ht⟩

end Test

namespace Description

open Template

theorem mark_prefix_lead {template : Text} (h : mark <+: template) : mark <+: lead template := by
  obtain ⟨rest, rfl⟩ := h
  exact ⟨lead rest, rfl⟩

/-- A beginning that is not a part of the mark settles whether a message has the mark. -/
theorem template_marked_of_lead {template m : Text} (hm : lead template <+: m)
    (hpart : ¬ lead template <+: mark) (h : mark <+: m) : mark <+: template :=
  ((List.prefix_or_prefix_of_prefix hm h).resolve_left hpart).trans (List.takeWhile_prefix _)

theorem length_strip_le (t : Text) : (Text.strip t).length ≤ t.length := by
  rw [Text.strip, Text.dropEnd, List.length_reverse]
  calc ((t.dropWhile isBlank).reverse.dropWhile isBlank).length
      ≤ (t.dropWhile isBlank).reverse.length := (List.dropWhile_sublist _).length_le
    _ = (t.dropWhile isBlank).length := List.length_reverse
    _ ≤ t.length := (List.dropWhile_sublist _).length_le

/-- A text with no blank at its ends describes itself, but for the mark. -/
theorem describe_eq_self_iff {t : Text} (hne : t ≠ []) (hfirst : t.head?.any isBlank = false)
    (hlast : t.getLast?.any isBlank = false) :
    Database.describe (some [t]) = t ↔ ¬ mark <+: t := by
  constructor
  · rintro h ⟨body, rfl⟩
    have hbody : ofMessages [mark ++ body] = Text.strip body := rfl
    have hshort := length_strip_le body
    rw [Database.describe, hbody] at h
    split at h
    · exact absurd (congrArg List.head? h) (by simp [fallback, mark])
    · have hlen := congrArg List.length h
      simp only [List.length_append, mark, List.length_cons, List.length_nil] at hlen
      omega
  · intro h
    have hlabel : IsLabel t := ⟨hne, isPrefixOf_mark_eq_false_iff.mpr h, hfirst, hlast⟩
    exact hlabel.describe_singleton

end Description

namespace Database

/-- The messages are those of the rules that match in the first tree that does. -/
theorem findings_of_firstMatch {s : Stream} {rules : List Rule} {messages : List Text}
    (h : firstMatch s rules = .ok (some messages)) :
    ∃ r ∈ rules, ∃ found, r.findings s = .ok found ∧ messages = found.map (·.message) := by
  induction rules with
  | nil => cases h
  | cons r rest ih =>
    obtain ⟨outcome, houtcome, h⟩ := bind_eq_ok_iff.mp h
    cases outcome with
    | none =>
      obtain ⟨r', hr', hfound⟩ := ih h
      exact ⟨r', List.mem_cons_of_mem r hr', hfound⟩
    | some own =>
      cases h
      rw [r.walk_eq] at houtcome
      obtain ⟨found, hfound, hreport⟩ := map_eq_ok_iff.mp houtcome
      refine ⟨r, List.mem_cons_self, found, hfound, ?_⟩
      unfold Finding.report at hreport
      split at hreport
      · cases hreport
      · exact (Option.some.inj hreport).symm

/-- The rule that prints the text at the start. -/
def textRule : Rule := ⟨.literal (.make (.fixed 0) .any []), "%s".toList, []⟩

theorem compile_textRule [RegexEngine] :
    RuleText.compile "0 string x %s".toList = .ok [textRule] := rfl

theorem walk_textRule {t : Text} (hz : '\x00' ∉ t)
    (hl : (t.utf8.length : Int) < Stream.positionLimit) :
    textRule.walk (.ofBytes t.utf8) = .ok (some [t]) := by
  have hs := Stream.inMemory_ofBytes hl
  have hhit : textRule.test.hit (.ofBytes t.utf8) = .ok (some ⟨some 0, none⟩) := by
    have hread : Test.readExactly (.ofBytes t.utf8) (.fixed (0 : Nat)) 0 = _ :=
      Test.readExactly_fixed hs (by decide) (by decide)
    rw [textRule, Test.hit, LiteralTest.make, if_pos rfl, Test.compareDecoded]
    exact (congrArg (ProbeFault.ofRead · >>= _) hread).trans rfl
  have hrest : (Stream.ofBytes t.utf8).rest 0 = t.utf8 := rfl
  have hwhile : ((Stream.ofBytes t.utf8).rest 0).takeWhile (· ≠ 0) = t.utf8 := by
    rw [hrest]
    simpa using Stream.takeWhile_append_of_not_mem (Utf8.zero_not_mem_utf8 hz) []
  have hout := Template.renderConversion_text_bare hs (p := 0) (by decide)
  rw [hwhile, Utf8.decode_utf8] at hout
  have hrender : Template.render (.ofBytes t.utf8) (some 0) "%s".toList none = .ok t := by
    refine (Template.renderPieces_letter (show ConversionKind.ofLetter? 's' = some .text from rfl)
      hout []).trans ?_
    simp [Template.pieces, Template.piecesAfter, Template.renderPieces, Except.map]
  have hmatches : textRule.test.evaluate (.ofBytes t.utf8) "%s".toList = .ok (some t) := by
    rw [Test.evaluate_of_hit (by decide) hhit, hrender]
    rfl
  rw [textRule] at hmatches ⊢
  rw [Rule.walk, hmatches]
  rfl

open Description

/-- Each rule that matches and says something says it whole and behind a space, unless its message
has the mark; whether it has is settled by its template, if that begins with anything but a part of
the mark. In particular the text at the start of content is described as it is, unless it has the
mark. -/
theorem whole_iff_unmarked [RegexEngine] (d : Database) (s : Stream) :
    (∀ {messages : List Text}, d.matching s = .ok (some messages) →
      d.probe s = .ok (if (Text.strip (joined messages)).isEmpty then fallback
        else Text.strip (joined messages)) ∧
      ∃ r ∈ d.rules, ∃ found, r.findings s = .ok found ∧ messages = found.map (·.message) ∧
        ∀ {before f after}, found = before ++ f :: after → f.message ≠ [] →
          (∃ rule, Rule.at? f.path r = some rule ∧
            rule.test.evaluate s rule.message = .ok (some f.message) ∧
            (mark <+: rule.message → mark <+: f.message) ∧
            (¬ Template.lead rule.message <+: mark → mark <+: f.message →
              mark <+: rule.message)) ∧
          joined (before.map (·.message) ++ [f.message]) <+: joined messages ∧
          (joined (before.map (·.message) ++ [f.message]) =
              joined (before.map (·.message)) ++ gap (joined (before.map (·.message))) ++
                f.message ↔
            ¬ mark <+: f.message)) ∧
    ∀ {t : Text}, t ≠ [] → t.head?.any isBlank = false → t.getLast?.any isBlank = false →
      '\x00' ∉ t → (t.utf8.length : Int) < Stream.positionLimit →
      ∃ rules, RuleText.compile "0 string x %s".toList = .ok rules ∧
        ((Database.mk rules).probe (.ofBytes t.utf8) = .ok t ↔ ¬ mark <+: t) := by
  refine ⟨fun {messages} h => ⟨?_, ?_⟩, fun {t} hne hfirst hlast hz hl => ?_⟩
  · rw [probe, h]
    rfl
  · obtain ⟨r, hr, found, hfound, hmessages⟩ := findings_of_firstMatch h
    refine ⟨r, hr, found, hfound, hmessages, fun {before f after} hsplit hsaid => ⟨?_, ?_, ?_⟩⟩
    · have hmem : f ∈ found := hsplit ▸ List.mem_append_right before List.mem_cons_self
      obtain ⟨rule, hrule, hevaluate⟩ := r.evaluate_of_mem_findings hfound hmem
      obtain ⟨position, shown, hrender⟩ := Test.render_of_evaluate hevaluate
      have hlead := Template.lead_prefix_render hrender
      exact ⟨rule, hrule, hevaluate, fun h => (mark_prefix_lead h).trans hlead,
        template_marked_of_lead hlead⟩
    · have hmap : messages = before.map (·.message) ++ [f.message] ++ after.map (·.message) := by
        rw [hmessages, hsplit, List.map_append, List.map_cons, List.append_assoc]
        rfl
      rw [hmap]
      exact joined_prefix _ _
    · rw [joined_concat]
      exact append_eq_iff hsaid
  · have hprobe : (Database.mk [textRule]).probe (.ofBytes t.utf8) = .ok (describe (some [t])) := by
      rw [probe, matching, firstMatch, walk_textRule hz hl]
      rfl
    refine ⟨[textRule], compile_textRule, ?_⟩
    rw [hprobe, Except.ok.injEq]
    exact describe_eq_self_iff hne hfirst hlast

/-- The rule below another one reads a text with the mark from its content: what it says is not
behind a space. Without the mark the text describes itself. -/
theorem whole_iff_unmarked_below_letter :
    let d : Database := ⟨[⟨.integer (.make (.fixed 0) .byte true .native .any none), "A".toList,
      [textRule]⟩]⟩
    let s : Stream := .ofBytes (Text.utf8 "\\bfoo".toList)
    RuleText.compile "0 byte x A\n>0 string x %s".toList = .ok d.rules ∧
      d.matching s = .ok (some ["A".toList, "\\bfoo".toList]) ∧
      joined ["A".toList, "\\bfoo".toList] ≠ "A \\bfoo".toList ∧
      ∃ rules, RuleText.compile "0 string x %s".toList = .ok rules ∧
        (Database.mk rules).probe (.ofBytes (Text.utf8 "foo".toList)) = .ok "foo".toList := by
  intro d s
  have hmatching : d.matching s = .ok (some ["A".toList, "\\bfoo".toList]) := by rfl
  refine ⟨rfl, hmatching, ?_, ?_⟩
  · obtain ⟨-, r, hr, found, hfound, hmessages, hwhole⟩ := (whole_iff_unmarked d s).1 hmatching
    rw [List.mem_singleton.mp hr] at hfound
    have hfindings : found = [⟨[], "A".toList⟩] ++ ⟨[0], "\\bfoo".toList⟩ :: [] :=
      Except.ok.inj (hfound.symm.trans rfl)
    obtain ⟨-, -, hiff⟩ := hwhole hfindings (by decide)
    exact mt hiff.mp (by decide)
  · obtain ⟨rules, hrules, hprobe⟩ := (whole_iff_unmarked d s).2 (t := "foo".toList) (by decide)
      (by decide) (by decide) (by decide) (by decide)
    exact ⟨rules, hrules, hprobe.mpr (by decide)⟩

/-- Content that starts with the mark decides how it is described. -/
theorem glued_by_content :
    RuleText.compile "0 string x %s".toList = .ok [textRule] ∧
      ¬ mark <+: textRule.message ∧
      (Database.mk [textRule]).matching (.ofBytes (Text.utf8 "\\bfoo".toList)) =
        .ok (some ["\\bfoo".toList]) ∧
      (Database.mk [textRule]).probe (.ofBytes (Text.utf8 "\\bfoo".toList)) = .ok "foo".toList ∧
      ¬ "\\bfoo".toList <:+: "foo".toList :=
  ⟨rfl, by decide, rfl, rfl, by decide⟩

end Database
end FileMagic
