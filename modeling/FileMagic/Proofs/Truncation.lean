import FileMagic.Proofs.Evaluation
import FileMagic.Rule

/-! # Truncation loses matches and makes none

Tests that read a certain number of octets match only when all of these are there. Where they
match they do so again, and at the same position, in content that goes on
(`Test.hit_of_extends`); what is read on the way, pointers included, is the same. So the rules of
a tree that match the beginning of some content also match the whole (`walk_of_truncated`).
Fallbacks and unlimited windows are left out: the one matches because others do not, the other
sees what comes later. -/

namespace FileMagic

namespace Stream

/-- The same object with more to read. -/
structure Extends (s s' : Stream) : Prop where
  backing : s'.backing = s.backing
  isOpen : s'.isOpen = s.isOpen
  content : s.content <+: s'.content

theorem extends_append (content more : Bytes) :
    (ofBytes content).Extends (ofBytes (content ++ more)) :=
  ⟨rfl, rfl, List.prefix_append content more⟩

variable {s s' : Stream}

theorem Extends.seek_eq (h : s.Extends s') (offset size : Int) :
    s'.seek offset size = s.seek offset size := by
  simp only [seek, h.backing, h.isOpen]

/-- A part that is there whole is the same part of what goes on. -/
theorem take_drop_of_whole {b b' : Bytes} (h : b <+: b') {i n : Nat}
    (hn : ((b.drop i).take n).length = n) : (b'.drop i).take n = (b.drop i).take n := by
  obtain ⟨more, rfl⟩ := h
  rw [List.length_take] at hn
  rw [List.drop_append, List.take_append_of_le_length (by omega)]

/-- A read that gives all it asks for. -/
theorem Extends.readAt_eq (h : s.Extends s') {offset : Int} {size : Nat} {raw : Bytes}
    (hr : s.readAt (some offset) size = .ok raw) (hl : raw.length = size) :
    s'.readAt (some offset) size = .ok raw := by
  simp only [readAt] at hr ⊢
  by_cases hout : offset < 0 ∨ (size : Int) ≤ 0
  · rw [if_pos hout] at hr ⊢
    exact hr
  · rw [if_neg hout] at hr ⊢
    rw [h.seek_eq, h.backing]
    cases hseek : s.seek offset size with
    | error e =>
      rw [hseek] at hr
      cases hr
    | ok u =>
      rw [hseek] at hr
      simp only at hr ⊢
      split at hr
      · next hsilent => rw [if_pos hsilent, hr]
      · next hsilent =>
        rw [if_neg hsilent]
        split at hr
        · cases hr
        · next hsize =>
          rw [if_neg hsize]
          cases hr
          rw [take_drop_of_whole h.content (by simpa using hl)]

end Stream

variable {s s' : Stream}

namespace Offset

mutual

theorem resolve_of_extends (h : s.Extends s') {reference p : Int} :
    ∀ o : Offset, o.resolve s reference = .ok (some p) → o.resolve s' reference = .ok (some p)
  | .fixed value, hp => hp
  | .indirect value width endianness signed delta, hp => by
    obtain ⟨raw, hraw, hp⟩ := bind_eq_ok_iff.mp hp
    split at hp
    · cases hp
    · next hl =>
      have hl' : raw.length = width.octets := Classical.not_not.mp hl
      rw [resolve, h.readAt_eq hraw hl', ok_bind, if_neg hl]
      exact hp
  | .chain first rest, hp => by
    obtain ⟨position, hfirst, hp⟩ := bind_eq_ok_iff.mp hp
    cases position with
    | none => cases hp
    | some q =>
      rw [resolve, resolve_of_extends h first hfirst, ok_bind]
      exact resolveStages_of_extends h rest hp

theorem resolveStages_of_extends (h : s.Extends s') {position p : Int} :
    ∀ stages : List Offset, resolveStages s position stages = .ok (some p) →
      resolveStages s' position stages = .ok (some p)
  | [], hp => hp
  | o :: rest, hp => by
    obtain ⟨position', hfirst, hp⟩ := bind_eq_ok_iff.mp hp
    cases position' with
    | none => cases hp
    | some q =>
      rw [resolveStages, resolve_of_extends h o hfirst, ok_bind]
      exact resolveStages_of_extends h rest hp

end

end Offset

namespace Test

theorem readExactly_of_extends (h : s.Extends s') {offset : Offset} {size : Nat}
    {read : Int × Bytes} (hr : readExactly s offset size = .ok (some read)) :
    readExactly s' offset size = .ok (some read) := by
  obtain ⟨position, hposition, hr⟩ := bind_eq_ok_iff.mp hr
  cases position with
  | none => cases hr
  | some p =>
    obtain ⟨raw, hraw, hr⟩ := bind_eq_ok_iff.mp hr
    split at hr
    · cases hr
    · next hl =>
      have hl' : raw.length = size := Classical.not_not.mp hl
      simp only [readExactly, offset.resolve_of_extends h hposition, ok_bind,
        h.readAt_eq hraw hl', if_neg hl]
      exact hr

theorem compareDecoded_of_extends (h : s.Extends s') {offset : Offset} {size : Nat}
    {decode : Bytes → Value} {expected : Value} {o : Operator} {shown : Value → Option Text}
    {hit : Hit} (hh : compareDecoded s offset size decode expected o shown = .ok (some hit)) :
    compareDecoded s' offset size decode expected o shown = .ok (some hit) := by
  obtain ⟨read, hread, hh⟩ := bind_eq_ok_iff.mp hh
  cases read with
  | none => cases hh
  | some read =>
    have hread' := readExactly_of_extends h (ProbeFault.ofRead_eq_ok_iff.mp hread)
    rw [compareDecoded, hread']
    exact hh

end Test

namespace RegexTest

/-- A window of so many octets. -/
theorem window_of_extends (h : s.Extends s') {t : RegexTest} {p : Int} {window : Bytes}
    (hcount : t.extender.count ≠ 0) (hlines : t.extender.lines = false)
    (hw : t.window s p = .ok window) (hne : window.isEmpty = false) :
    t.window s' p = .ok window := by
  unfold RegexTest.window at hw ⊢
  rw [if_neg hcount, hlines, if_neg Bool.false_ne_true] at hw ⊢
  obtain ⟨raw, hraw, hw⟩ := bind_eq_ok_iff.mp hw
  split at hw
  · cases hw
    cases hne
  · next hl =>
    have hl' : raw.length = t.extender.count := Classical.not_not.mp hl
    rw [h.readAt_eq hraw hl', ok_bind, if_neg hl]
    exact hw

theorem hit_of_extends (h : s.Extends s') {t : RegexTest} {search : Bytes → Option Regex.Span}
    {hit : Hit} (hcount : t.extender.count ≠ 0) (hlines : t.extender.lines = false)
    (hh : t.hit search s = .ok (some hit)) : t.hit search s' = .ok (some hit) := by
  obtain ⟨position, hposition, hh⟩ := bind_eq_ok_iff.mp hh
  cases position with
  | none => cases hh
  | some p =>
    have hp := t.offset.resolve_of_extends h (ProbeFault.ofRead_eq_ok_iff.mp hposition)
    simp only [RegexTest.hit, hp, ProbeFault.ofRead_ok, ok_bind]
    by_cases hany : t.operator = .any
    · simp only [if_pos hany] at hh ⊢
      exact hh
    · simp only [if_neg hany] at hh ⊢
      obtain ⟨window, hwindow, hh⟩ := bind_eq_ok_iff.mp hh
      cases hempty : window.isEmpty with
      | true =>
        rw [hempty] at hh
        cases hh
      | false =>
        have hw := window_of_extends h hcount hlines (ProbeFault.ofRead_eq_ok_iff.mp hwindow) hempty
        rw [hw]
        exact hh

end RegexTest

namespace Test

/-- The test looks at a certain number of octets. -/
def isMeasured : Test → Bool
  | .regex t => t.extender.count ≠ 0 && !t.extender.lines
  | .fallback _ | .bare .. => false
  | _ => true

/-- Where a test matches it matches again when there is more to read. -/
theorem hit_of_extends (h : s.Extends s') {t : Test} (hm : t.isMeasured = true) {hit : Hit}
    (hh : t.hit s = .ok (some hit)) : t.hit s' = .ok (some hit) := by
  unfold Test.hit at hh ⊢
  cases t with
  | integer t => exact compareDecoded_of_extends h hh
  | real t => exact compareDecoded_of_extends h hh
  | date t => exact compareDecoded_of_extends h hh
  | literal t => exact compareDecoded_of_extends h hh
  | guid t => exact compareDecoded_of_extends h hh
  | regex t =>
    simp only [isMeasured, ne_eq, decide_not, Bool.and_eq_true, Bool.not_eq_true',
      decide_eq_false_iff_not] at hm
    exact t.hit_of_extends h hm.1 hm.2 hh
  | fallback offset => cases hm
  | unsupported keyword offset value => cases hh
  | bare offset operator expected => cases hm

theorem evaluate_of_extends (h : s.Extends s') {t : Test} (hm : t.isMeasured = true)
    {message own : Text} {outcome : Outcome} (he : t.evaluate s message = .ok (some own))
    (he' : t.evaluate s' message = .ok outcome) : ∃ own', outcome = some own' := by
  obtain ⟨u, hcheck, he⟩ := bind_eq_ok_iff.mp he
  obtain ⟨hit, hhit, he⟩ := bind_eq_ok_iff.mp he
  cases hit with
  | none => cases he
  | some hit =>
    rw [evaluate, hcheck, ok_bind, hit_of_extends h hm hhit, ok_bind] at he'
    obtain ⟨own', -, rfl⟩ := map_eq_ok_iff.mp he'
    exact ⟨own', rfl⟩

end Test

/-- A rule that has matched: the way to it from the root, by places among siblings, and its
message. -/
structure Finding where
  path : List Nat
  message : Text
deriving DecidableEq, Repr

namespace Finding

def under (place : Nat) (f : Finding) : Finding := ⟨place :: f.path, f.message⟩

/-- What a walk reports: the messages, if any rule has matched. -/
def report (found : List Finding) : Option (List Text) :=
  if found.isEmpty then none else some (found.map (·.message))

theorem map_message_under (place : Nat) (found : List Finding) :
    (found.map (under place)).map (·.message) = found.map (·.message) := by
  simp [under]

theorem map_path_under (place : Nat) (found : List Finding) :
    (found.map (under place)).map (·.path) = (found.map (·.path)).map (place :: ·) := by
  simp [under]

theorem isSome_report (found : List Finding) : (report found).isSome = !found.isEmpty := by
  cases found <;> rfl

end Finding

namespace Rule
open Finding

mutual

/-- The rules of a tree that match, in the order of the walk. -/
def findings (s : Stream) : Rule → Except ProbeFault (List Finding)
  | ⟨test, message, children⟩ => do
    match ← test.evaluate s message with
    | none => pure []
    | some own =>
      let below ← findingsBelow s false 0 children
      pure (⟨[], own⟩ :: below)

/-- Those of siblings, the first of which stands at `place`. -/
def findingsBelow (s : Stream) (matched : Bool) (place : Nat) :
    List Rule → Except ProbeFault (List Finding)
  | [] => .ok []
  | ⟨test, message, children⟩ :: rest =>
    if test.isFallback && matched then findingsBelow s matched (place + 1) rest
    else do
      let found ← findings s ⟨test, message, children⟩
      let more ← findingsBelow s (matched || !found.isEmpty) (place + 1) rest
      pure (found.map (under place) ++ more)

end

mutual

/-- A walk reports the messages of its findings. -/
theorem walk_eq (s : Stream) : ∀ r : Rule, r.walk s = (r.findings s).map report
  | ⟨test, message, children⟩ => by
    rw [walk, findings]
    cases test.evaluate s message with
    | error e => rfl
    | ok own =>
      cases own with
      | none => rfl
      | some own =>
        rw [ok_bind, ok_bind]
        simp only [walkChildren_eq s false 0 children]
        cases findingsBelow s false 0 children with
        | error e => rfl
        | ok below => rfl

theorem walkChildren_eq (s : Stream) (matched : Bool) (place : Nat) :
    ∀ rules : List Rule, walkChildren s matched rules =
      (findingsBelow s matched place rules).map fun found => found.map (·.message)
  | [] => rfl
  | ⟨test, message, children⟩ :: rest => by
    rw [walkChildren, findingsBelow]
    split
    · exact walkChildren_eq s matched (place + 1) rest
    · rw [walk_eq s ⟨test, message, children⟩]
      cases findings s ⟨test, message, children⟩ with
      | error e => rfl
      | ok found =>
        simp only [Except.map, ok_bind]
        cases found with
        | nil =>
          simp only [report, List.isEmpty_nil, if_true, Bool.not_true, Bool.or_false,
            walkChildren_eq s matched (place + 1) rest]
          cases findingsBelow s matched (place + 1) rest <;> rfl
        | cons f found =>
          simp only [report, List.isEmpty_cons, Bool.false_eq_true, if_false, Bool.not_false,
            Bool.or_true, walkChildren_eq s true (place + 1) rest]
          cases findingsBelow s true (place + 1) rest with
          | error e => rfl
          | ok more =>
            simp only [Except.map, ok_bind, pure_eq_ok, List.map_append, map_message_under]

end

/-- The rule that a way from the root leads to. -/
def at? : List Nat → Rule → Option Rule
  | [], r => some r
  | place :: path, r => r.children[place]?.bind (at? path)

mutual

/-- A finding is a rule of the tree that its test has matched. -/
theorem evaluate_of_mem_findings {found : List Finding} {f : Finding} :
    ∀ r : Rule, r.findings s = .ok found → f ∈ found →
      ∃ rule, at? f.path r = some rule ∧ rule.test.evaluate s rule.message = .ok (some f.message)
  | ⟨test, message, children⟩, hf, hmem => by
    obtain ⟨own, hown, hf⟩ := bind_eq_ok_iff.mp hf
    cases own with
    | none =>
      cases hf
      cases hmem
    | some own =>
      obtain ⟨below, hbelow, hf⟩ := bind_eq_ok_iff.mp hf
      cases hf
      rcases List.mem_cons.mp hmem with rfl | hmem
      · exact ⟨⟨test, message, children⟩, rfl, hown⟩
      · obtain ⟨place, path, hpath, child, hchild, rule, hrule, he⟩ :=
          evaluate_of_mem_findingsBelow children hbelow hmem
        rw [Nat.zero_add] at hpath
        refine ⟨rule, ?_, he⟩
        rw [hpath, at?, hchild]
        exact hrule

theorem evaluate_of_mem_findingsBelow {matched : Bool} {first : Nat} {found : List Finding}
    {f : Finding} : ∀ rules : List Rule, findingsBelow s matched first rules = .ok found →
      f ∈ found → ∃ place path, f.path = (first + place) :: path ∧ ∃ child,
        rules[place]? = some child ∧ ∃ rule, at? path child = some rule ∧
          rule.test.evaluate s rule.message = .ok (some f.message)
  | [], hf, hmem => by
    cases hf
    cases hmem
  | ⟨test, message, children⟩ :: rest, hf, hmem => by
    -- a finding among the later siblings stands one place further
    have hlater : ∀ {matched' more}, findingsBelow s matched' (first + 1) rest = .ok more →
        f ∈ more → ∃ place path, f.path = (first + place) :: path ∧ ∃ child,
          (⟨test, message, children⟩ :: rest : List Rule)[place]? = some child ∧
            ∃ rule, at? path child = some rule ∧
              rule.test.evaluate s rule.message = .ok (some f.message) := by
      intro matched' more hmore hmem
      obtain ⟨place, path, hpath, hchild⟩ := evaluate_of_mem_findingsBelow rest hmore hmem
      refine ⟨place + 1, path, ?_, hchild⟩
      rw [hpath, Nat.add_assoc, Nat.add_comm 1 place]
    rw [findingsBelow] at hf
    split at hf
    · exact hlater hf hmem
    · obtain ⟨own, hown, hf⟩ := bind_eq_ok_iff.mp hf
      obtain ⟨more, hmore, hf⟩ := bind_eq_ok_iff.mp hf
      cases hf
      rcases List.mem_append.mp hmem with hmem | hmem
      · obtain ⟨g, hg, rfl⟩ := List.mem_map.mp hmem
        obtain ⟨rule, hrule, he⟩ := evaluate_of_mem_findings _ hown hg
        exact ⟨0, g.path, rfl, _, rfl, rule, hrule, he⟩
      · exact hlater hmore hmem

end

mutual

/-- A tree of measured tests finds no less when there is more to read. -/
theorem findings_of_extends (h : s.Extends s') {depth : Nat} {found found' : List Finding} :
    ∀ r : Rule, (∀ e ∈ Forest.entriesAt depth r, e.test.isMeasured = true) →
      r.findings s = .ok found → r.findings s' = .ok found' →
      (found.map (·.path)).Sublist (found'.map (·.path))
  | ⟨test, message, children⟩, hm, hf, hf' => by
    obtain ⟨htest, hchildren⟩ := List.forall_mem_cons.mp hm
    obtain ⟨own, hown, hf⟩ := bind_eq_ok_iff.mp hf
    cases own with
    | none =>
      cases hf
      exact List.nil_sublist _
    | some own =>
      obtain ⟨below, hbelow, hf⟩ := bind_eq_ok_iff.mp hf
      obtain ⟨outcome, houtcome, hf'⟩ := bind_eq_ok_iff.mp hf'
      obtain ⟨own', rfl⟩ := Test.evaluate_of_extends h htest hown houtcome
      obtain ⟨below', hbelow', hf'⟩ := bind_eq_ok_iff.mp hf'
      cases hf
      cases hf'
      exact (findingsBelow_of_extends h children hchildren hbelow hbelow').cons_cons []

theorem findingsBelow_of_extends (h : s.Extends s') {depth place : Nat} {matched matched' : Bool}
    {found found' : List Finding} :
    ∀ rules : List Rule, (∀ e ∈ Forest.entriesBelow depth rules, e.test.isMeasured = true) →
      findingsBelow s matched place rules = .ok found →
      findingsBelow s' matched' place rules = .ok found' →
      (found.map (·.path)).Sublist (found'.map (·.path))
  | [], _, hf, _ => by
    cases hf
    exact List.nil_sublist _
  | ⟨test, message, children⟩ :: rest, hm, hf, hf' => by
    rw [Forest.entriesBelow] at hm
    obtain ⟨hfirst, hrest⟩ := List.forall_mem_append.mp hm
    -- a measured test is no fallback, so that what its siblings did is not asked
    have hplain : test.isFallback = false := by
      have htest : test.isMeasured = true := hfirst _ List.mem_cons_self
      cases test with
      | fallback offset => cases htest
      | _ => rfl
    rw [findingsBelow, hplain, Bool.false_and, if_neg Bool.false_ne_true] at hf hf'
    obtain ⟨own, hown, hf⟩ := bind_eq_ok_iff.mp hf
    obtain ⟨more, hmore, hf⟩ := bind_eq_ok_iff.mp hf
    obtain ⟨own', hown', hf'⟩ := bind_eq_ok_iff.mp hf'
    obtain ⟨more', hmore', hf'⟩ := bind_eq_ok_iff.mp hf'
    cases hf
    cases hf'
    have hsub := findings_of_extends h ⟨test, message, children⟩ hfirst hown hown'
    have hsub' := findingsBelow_of_extends h rest hrest hmore hmore'
    rw [List.map_append, List.map_append, map_path_under, map_path_under]
    exact (hsub.map _).append hsub'

end

/-- The rules that match a beginning match the whole, if both can be walked. -/
theorem walk_of_truncated {r : Rule}
    (hm : ∀ e ∈ Forest.entriesAt 0 r, e.test.isMeasured = true) {content more : Bytes}
    {messages messages' : Option (List Text)} (h : r.walk (.ofBytes content) = .ok messages)
    (h' : r.walk (.ofBytes (content ++ more)) = .ok messages') :
    ∃ found found', r.findings (.ofBytes content) = .ok found ∧ messages = report found ∧
      r.findings (.ofBytes (content ++ more)) = .ok found' ∧ messages' = report found' ∧
      (found.map (·.path)).Sublist (found'.map (·.path)) ∧
      (messages.isSome → messages'.isSome) := by
  rw [walk_eq] at h h'
  obtain ⟨found, hfound, rfl⟩ := map_eq_ok_iff.mp h
  obtain ⟨found', hfound', rfl⟩ := map_eq_ok_iff.mp h'
  have hsub := findings_of_extends (Stream.extends_append content more) r hm hfound hfound'
  refine ⟨found, found', hfound, rfl, hfound', rfl, hsub, ?_⟩
  rw [isSome_report, isSome_report]
  cases found with
  | nil => intro h; cases h
  | cons f found =>
    cases found' with
    | nil => cases hsub
    | cons f' found' => exact id

/-- A pointer and what it leads to are there in the beginning already, one more test finds its
octets later. -/
theorem walk_of_truncated_pointer :
    ∃ r : Rule, (∀ e ∈ Forest.entriesAt 0 r, e.test.isMeasured = true) ∧
      r.walk (.ofBytes [2, 0, 65]) = .ok (some ["first".toList, "A".toList]) ∧
      r.walk (.ofBytes ([2, 0, 65] ++ [66])) =
        .ok (some ["first".toList, "AB".toList, "last".toList]) ∧
      ∃ found found', r.findings (.ofBytes [2, 0, 65]) = .ok found ∧
        r.findings (.ofBytes ([2, 0, 65] ++ [66])) = .ok found' ∧
        (found.map (·.path)).Sublist (found'.map (·.path)) := by
  let r : Rule := ⟨.integer ⟨.fixed 0, .byte, false, .native, .notEqual, some 0⟩, "first".toList,
    [⟨.literal ⟨.indirect 0 .byte .little false 0, .any, []⟩, "%s".toList, []⟩,
      ⟨.integer ⟨.indirect 0 .byte .little false 0, .short, true, .big, .greater, some 0⟩,
        "last".toList, []⟩]⟩
  have hm : ∀ e ∈ Forest.entriesAt 0 r, e.test.isMeasured = true :=
    List.all_eq_true.mp (by decide)
  have h : r.walk (.ofBytes [2, 0, 65]) = .ok (some ["first".toList, "A".toList]) := rfl
  have h' : r.walk (.ofBytes ([2, 0, 65] ++ [66])) =
      .ok (some ["first".toList, "AB".toList, "last".toList]) := rfl
  obtain ⟨found, found', hfound, -, hfound', -, hsub, -⟩ := walk_of_truncated hm h h'
  exact ⟨r, hm, h, h', found, found', hfound, hfound', hsub⟩

end Rule
end FileMagic
