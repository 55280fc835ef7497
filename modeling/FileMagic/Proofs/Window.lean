import FileMagic.Proofs.Lifecycle
import FileMagic.Proofs.Means
import FileMagic.Proofs.Search

/-! # Where an expression is looked for

A regex test looks in one part of the content, its view: all from the position on, so many lines,
or so many octets if they are all there (`Extender.view`). The three reads that give it end
differently at the end of the content, but all of them give a beginning of what is there, so that a
place in the view is the same place in the content and its message is rendered from there. Whatever
the search is, the view decides whether the test matches (`evaluate_iff_finds`). -/

namespace FileMagic

variable {s : Stream} {p : Int}

theorem Stream.Readable.inMemory_copy (hs : s.Readable) : s.copy.InMemory :=
  inMemory_ofBytes (Int.lt_of_lt_of_le hs.length_lt (bound_le _))

/-- Reads of a stream give what those of a copy of its content give. -/
theorem Stream.Readable.ofStream_copy (hs : s.Readable) {r : Read} (hw : r.Within s.backing) :
    r.ofStream s = r.ofStream s.copy := by
  have hcopy : r.Within .memory :=
    ⟨fun o ho => Int.lt_of_lt_of_le (hw.start o ho) (bound_le _), hw.size.mono (sizeLimit_le _)⟩
  obtain ⟨b, hb⟩ := r.ofStream_gives hs hw
  rw [hb s hs rfl hw, hb _ hs.inMemory_copy.readable rfl hcopy]

namespace Template

theorem readText_copy (hs : s.Readable) (hp : p < Stream.bound s.backing) :
    readText s p = readText s.copy p := by
  have huntil : s.readUntil (some p) [0] = s.copy.readUntil (some p) [0] :=
    hs.ofStream_copy (r := .upTo (some p) [0]) ⟨(Read.startsBelow_iff rfl).mpr hp, trivial⟩
  have hafter := hs.advance_lt hp (Stream.length_takeWhile_rest_le s p 0)
  have hterminator := hs.ofStream_copy
    (r := .part (some (p + ((s.rest p).takeWhile (· ≠ 0)).length)) 1)
    ⟨(Read.startsBelow_iff rfl).mpr hafter, Stream.lt_sizeLimit (by decide) _⟩
  rw [readText, readText, ← huntil, hs.readUntil_eq 0 hp, ok_bind, ok_bind]
  exact congrArg (· >>= _) hterminator

theorem readInteger_copy (hs : s.Readable) (hp : p < Stream.bound s.backing) (signed : Bool) :
    readInteger s p signed = readInteger s.copy p signed := by
  have hread := hs.ofStream_copy (r := .part (some p) integerWidth.octets)
    ⟨(Read.startsBelow_iff rfl).mpr hp, Stream.lt_sizeLimit (by decide) _⟩
  exact congrArg (· >>= _) hread

theorem renderConversion_copy (hs : s.Readable) (shown : Option Text) {position : Option Int}
    (hp : ∀ p ∈ position, p < Stream.bound s.backing) (c : Conversion) :
    renderConversion s shown position c =
      renderConversion s.copy shown position c := by
  have htext : renderText s shown position c =
      renderText s.copy shown position c := by
    unfold renderText
    cases shown with
    | some t => rfl
    | none =>
      cases position with
      | none => rfl
      | some p => simp only [readText_copy hs (hp p rfl)]
  have hinteger : renderInteger s position c = renderInteger s.copy position c := by
    unfold renderInteger
    cases position with
    | none => rfl
    | some p => simp only [readInteger_copy hs (hp p rfl)]
  unfold renderConversion
  rw [htext, hinteger]

/-- Conversions lead from a position within the bound to such positions only. -/
theorem renderPieces_copy (hs : s.Readable) (shown : Option Text) {position : Option Int}
    (hp : ∀ p ∈ position, p < Stream.bound s.backing) (pieces : List Piece) :
    renderPieces s shown position pieces =
      renderPieces s.copy shown position pieces := by
  have hm := hs.inMemory_copy
  induction pieces generalizing position with
  | nil => rfl
  | cons piece rest ih =>
    cases piece with
    | char c => rw [renderPieces, renderPieces, ih hp]
    | conversion c =>
      rw [renderPieces, renderPieces, renderConversion_copy hs shown hp]
      cases hr : renderConversion s.copy shown position c with
      | error e => rfl
      | ok result =>
        obtain ⟨out, after⟩ := result
        obtain rfl := next_of_renderConversion hm hr
        have hnext : ∀ p ∈ c.next s.copy shown position, p < Stream.bound s.backing :=
          next_lt hs shown c hp
        simp only [ok_bind, ih hnext]

theorem render_copy (hs : s.Readable) (hp : p < Stream.bound s.backing) (template : Text)
    (shown : Option Text) :
    render s (some p) template shown = render s.copy (some p) template shown :=
  renderPieces_copy hs shown (by simpa using hp) (pieces template)

/-- The conversions of a template can all be laid out. -/
def HasLayouts (template : Text) : Prop := ∀ c, .conversion c ∈ pieces template → c.Formats

/-- A template that can be laid out is rendered wherever there is something to read from. -/
theorem HasLayouts.render_isOk {template : Text} (h : HasLayouts template) (hs : s.Readable)
    (hp : p < Stream.bound s.backing) (shown : Option Text) :
    ∃ message, render s (some p) template shown = .ok message := by
  have hm := hs.inMemory_copy
  have hnot : ¬ Fails (render s.copy (some p) template shown) := by
    rw [render_fails_iff hm]
    have hp' : p < Stream.positionLimit := Int.lt_of_lt_of_le hp (Stream.bound_le _)
    exact not_faults hm shown (fun c _ => by simpa using hp') h
  rw [render_copy hs hp]
  cases hr : render s.copy (some p) template shown with
  | error e => exact absurd ⟨e, hr⟩ hnot
  | ok message => exact ⟨message, rfl⟩

end Template

/-- The octets of some content that an extender leaves to look in, from a place on. -/
def Extender.view (x : Extender) (content : Bytes) (place : Nat) : Bytes :=
  if x.count = 0 then content.drop place
  else if x.lines then ((Bytes.lines (content.drop place)).take x.count).flatten
  else if place + x.count ≤ content.length then (content.drop place).take x.count
  else []

theorem Extender.length_view_le (x : Extender) (content : Bytes) (place : Nat) :
    (x.view content place).length ≤ (content.drop place).length := by
  unfold view
  split
  · exact Nat.le_refl _
  · split
    · exact Bytes.length_flatten_take_le _ _
    · split
      · exact List.length_take_le' ..
      · exact Nat.zero_le _

namespace RegexTest

variable {t : RegexTest} {m : Means}

theorem window_eq (hs : s.Readable) (hnonneg : 0 ≤ p) (hp : p < Stream.bound s.backing)
    (hcount : (t.extender.count : Int) < Stream.sizeLimit s.backing) :
    t.window s p = .ok (t.extender.view s.content p.toNat) := by
  unfold window Extender.view
  rw [← Stream.rest_of_nonneg hnonneg]
  by_cases hall : t.extender.count = 0
  · rw [if_pos hall, if_pos hall]
    exact hs.readAll_eq hp
  · rw [if_neg hall, if_neg hall]
    cases t.extender.lines with
    | true => exact hs.readLines_eq t.extender.count hp
    | false =>
      have hread := hs.readAt_eq hp hcount
      have hwhole : ((s.rest p).take t.extender.count).length = t.extender.count ↔
          p.toNat + t.extender.count ≤ s.content.length := by
        rw [List.length_take, Stream.length_rest hnonneg]
        omega
      rw [Int.toNat_natCast] at hread
      simp only [Bool.false_eq_true, if_false, hread, ok_bind, pure_eq_ok, ne_eq, hwhole,
        ite_not]

/-- The search finds this in a view that has anything in it. -/
structure Finds (t : RegexTest) (m : Means) (content : Bytes) (place : Nat)
    (span : Regex.Span) : Prop where
  view_ne_nil : t.extender.view content place ≠ []
  found : m.search t.pattern (t.extender.view content place) = some span

/-- From where the message is rendered: the end of a match, or its start. -/
def edge (t : RegexTest) (span : Regex.Span) : Nat :=
  if t.extender.fromStart then span.start else span.stop

/-- A span lies in the octets that are searched. -/
def SearchesWithin (t : RegexTest) (m : Means) : Prop :=
  ∀ window span, m.search t.pattern window = some span →
    span.start ≤ span.stop ∧ span.stop ≤ window.length

theorem searchesWithin_usual {pattern : Pattern} (h : t.pattern = some pattern.toRegex) :
    t.SearchesWithin .usual := by
  intro window span hsearch
  rw [h] at hsearch
  exact Pattern.search_bounds hsearch

theorem Finds.edge_lt (hs : s.Readable) (hm : t.SearchesWithin m) (hnonneg : 0 ≤ p)
    (hp : p < Stream.bound s.backing) {span : Regex.Span}
    (h : t.Finds m s.content p.toNat span) : p + t.edge span < Stream.bound s.backing := by
  obtain ⟨hstart, hstop⟩ := hm _ span h.found
  have hview := t.extender.length_view_le s.content p.toNat
  rw [← Stream.rest_of_nonneg hnonneg] at hview
  have hedge : t.edge span ≤ span.stop := by
    unfold edge
    split
    · exact hstart
    · exact Nat.le_refl _
  exact hs.advance_lt hp (Nat.le_trans hedge (Nat.le_trans hstop hview))

/-- A regex test for equality looks from this place on, and the object can be asked for what it
looks at. -/
structure LooksFrom (t : RegexTest) (s : Stream) (p : Int) : Prop where
  operator : t.operator = .equal
  resolves : t.offset.resolve s 0 = .ok (some p)
  nonneg : 0 ≤ p
  place_lt : p < Stream.bound s.backing
  count_lt : (t.extender.count : Int) < Stream.sizeLimit s.backing

theorem hitBy_eq (hs : s.Readable) (h : t.LooksFrom s p) :
    (Test.regex t).hitBy m s =
      .ok (if t.extender.view s.content p.toNat = [] then none
        else (m.search t.pattern (t.extender.view s.content p.toNat)).map fun span =>
          ⟨some (p + t.edge span), none⟩) := by
  show t.hit (m.search t.pattern) s = _
  simp only [hit, h.resolves, ProbeFault.ofRead_ok, ok_bind, h.operator, reduceCtorEq, if_false,
    window_eq hs h.nonneg h.place_lt h.count_lt, List.isEmpty_iff]
  split
  · rfl
  · cases m.search t.pattern (t.extender.view s.content p.toNat) <;> rfl

theorem evaluateBy_of_finds (hs : s.Readable) (h : t.LooksFrom s p) {span : Regex.Span}
    (hfinds : t.Finds m s.content p.toNat span) (template : Text) :
    (Test.regex t).evaluateBy m s template =
      (Template.render s (some (p + t.edge span)) template none).map some := by
  have hhit : (Test.regex t).hitBy m s = .ok (some ⟨some (p + t.edge span), none⟩) := by
    rw [hitBy_eq hs h, if_neg hfinds.view_ne_nil, hfinds.found]
    rfl
  rw [Test.evaluateBy, Test.checkOperator, Test.operator, h.operator, hhit]
  rfl

theorem evaluateBy_of_not_finds (hs : s.Readable) (h : t.LooksFrom s p)
    (hnot : ¬ ∃ span, t.Finds m s.content p.toNat span) (template : Text) :
    (Test.regex t).evaluateBy m s template = .ok none := by
  have hhit : (Test.regex t).hitBy m s = .ok none := by
    rw [hitBy_eq hs h]
    split
    · rfl
    · next hview =>
      cases hfound : m.search t.pattern (t.extender.view s.content p.toNat) with
      | none => rfl
      | some span => exact absurd ⟨span, hview, hfound⟩ hnot
  rw [Test.evaluateBy, Test.checkOperator, Test.operator, h.operator, hhit]
  rfl

theorem evaluateBy_eq_none_iff (hs : s.Readable) (h : t.LooksFrom s p) (template : Text) :
    (Test.regex t).evaluateBy m s template = .ok none ↔
      ¬ ∃ span, t.Finds m s.content p.toNat span := by
  refine ⟨?_, fun hnot => evaluateBy_of_not_finds hs h hnot template⟩
  rintro hnone ⟨span, hfinds⟩
  rw [evaluateBy_of_finds hs h hfinds] at hnone
  obtain ⟨message, -, hsome⟩ := map_eq_ok_iff.mp hnone
  cases hsome

/-- With a template that can be laid out a test that finds something also has a message. -/
theorem evaluateBy_eq_some_iff (hs : s.Readable) (h : t.LooksFrom s p) (hm : t.SearchesWithin m)
    {template : Text} (htemplate : Template.HasLayouts template) :
    (∃ message, (Test.regex t).evaluateBy m s template = .ok (some message)) ↔
      ∃ span, t.Finds m s.content p.toNat span := by
  constructor
  · rintro ⟨message, hmessage⟩
    refine Classical.not_not.mp fun hnot => ?_
    rw [evaluateBy_of_not_finds hs h hnot] at hmessage
    cases hmessage
  · rintro ⟨span, hfinds⟩
    obtain ⟨message, hmessage⟩ :=
      htemplate.render_isOk hs (hfinds.edge_lt hs hm h.nonneg h.place_lt) none
    exact ⟨message, by rw [evaluateBy_of_finds hs h hfinds, hmessage]; rfl⟩

/-- Whatever the search is, a test matches when it finds something in a view that is not empty, and
renders its message from there. Over other content with the same view it does the same. -/
theorem evaluate_iff_finds (hs : s.Readable) (h : t.LooksFrom s p) (hm : t.SearchesWithin m) :
    (∀ template,
      ((Test.regex t).evaluateBy m s template = .ok none ↔
        ¬ ∃ span, t.Finds m s.content p.toNat span) ∧
      (∀ span, t.Finds m s.content p.toNat span →
        (Test.regex t).evaluateBy m s template =
          (Template.render s (some (p + t.edge span)) template none).map some) ∧
      (Template.HasLayouts template →
        ((∃ message, (Test.regex t).evaluateBy m s template = .ok (some message)) ↔
          ∃ span, t.Finds m s.content p.toNat span))) ∧
    (∀ s' : Stream, s'.Readable → t.LooksFrom s' p →
      t.extender.view s'.content p.toNat = t.extender.view s.content p.toNat → ∀ template,
      ((Test.regex t).evaluateBy m s' template = .ok none ↔
        (Test.regex t).evaluateBy m s template = .ok none) ∧
      (Template.HasLayouts template →
        ((∃ message, (Test.regex t).evaluateBy m s' template = .ok (some message)) ↔
          ∃ message, (Test.regex t).evaluateBy m s template = .ok (some message)))) ∧
    ∀ template,
      (Test.regex t).evaluateBy .usual s template = (Test.regex t).evaluate s template := by
  refine ⟨fun template => ⟨evaluateBy_eq_none_iff hs h template, fun span hfinds => ?_,
    evaluateBy_eq_some_iff hs h hm⟩, fun s' hs' h' hview template => ?_, fun template => ?_⟩
  · exact evaluateBy_of_finds hs h hfinds template
  · have hsame : ∀ span, t.Finds m s'.content p.toNat span ↔ t.Finds m s.content p.toNat span := by
      intro span
      constructor
      · rintro ⟨hne, hfound⟩
        exact ⟨hview ▸ hne, hview ▸ hfound⟩
      · rintro ⟨hne, hfound⟩
        exact ⟨hview.symm ▸ hne, hview.symm ▸ hfound⟩
    refine ⟨?_, fun htemplate => ?_⟩
    · rw [evaluateBy_eq_none_iff hs' h', evaluateBy_eq_none_iff hs h, exists_congr hsame]
    · rw [evaluateBy_eq_some_iff hs' h' hm htemplate, evaluateBy_eq_some_iff hs h hm htemplate,
        exists_congr hsame]
  · exact Test.evaluateBy_usual s template (.regex t)

/-- The second line has what the first one has not; the message starts there. Of seven octets only
six are there, and nothing is found in them. -/
theorem evaluate_iff_finds_second_line :
    ∃ lines octets : RegexTest,
      RegexTest.make (.fixed 1) .equal "b".toList "2ls".toList = .ok lines ∧
      RegexTest.make (.fixed 1) .equal "b".toList "7".toList = .ok octets ∧
      let s : Stream := .ofBytes (Text.utf8 "xa\nb!\nb".toList)
      s.Readable ∧ lines.LooksFrom s 1 ∧ octets.LooksFrom s 1 ∧
      lines.SearchesWithin .usual ∧ octets.SearchesWithin .usual ∧
      (Test.regex lines).evaluate s "%s".toList = .ok (some "b!\nb".toList) ∧
      (Test.regex octets).evaluate s "%s".toList = .ok none := by
  let pattern : Pattern := .octet (.octet 98) false
  let lines : RegexTest :=
    ⟨.fixed 1, .equal, "b".toList, ⟨2, false, true, true⟩, some pattern.toRegex⟩
  let octets : RegexTest :=
    ⟨.fixed 1, .equal, "b".toList, ⟨7, false, false, false⟩, some pattern.toRegex⟩
  let s : Stream := .ofBytes (Text.utf8 "xa\nb!\nb".toList)
  have hs : s.Readable := ⟨⟨rfl, nofun⟩, by decide⟩
  have hlines : lines.LooksFrom s 1 := ⟨rfl, rfl, by decide, by decide, by decide⟩
  have hoctets : octets.LooksFrom s 1 := ⟨rfl, rfl, by decide, by decide, by decide⟩
  have hwithin : lines.SearchesWithin .usual := searchesWithin_usual rfl
  have hwithin' : octets.SearchesWithin .usual := searchesWithin_usual rfl
  obtain ⟨hspec, -, husual⟩ := evaluate_iff_finds hs hlines hwithin
  obtain ⟨hspec', -, husual'⟩ := evaluate_iff_finds hs hoctets hwithin'
  have hfinds : lines.Finds .usual s.content 1 ⟨2, 3⟩ := ⟨by decide, by rfl⟩
  refine ⟨lines, octets, rfl, rfl, hs, hlines, hoctets, hwithin, hwithin', ?_, ?_⟩
  · rw [← husual, (hspec _).2.1 ⟨2, 3⟩ hfinds]
    rfl
  · rw [← husual', (hspec' _).1]
    rintro ⟨span, hview, -⟩
    exact hview rfl

end RegexTest
end FileMagic
