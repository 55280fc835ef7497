import FileMagic.Pattern.Engine
import FileMagic.Proofs.Operand

/-! # What a compiled test compares

A test compares, or searches for its expression, by means that can be exchanged
(`Test.evaluateBy`). A compiled test has the same outcome by all means that agree about values of
the kind it reads, in the range of its type, and about expressions that are there
(`readLine_wellFormed`). So it is never asked what to make of an operand that is absent or out of
range, or of an expression that is missing: the answer would be free. -/

namespace FileMagic

/-- Means to compare values, and to search octets for an expression. -/
structure Means where
  compare : Value → Value → Operator → Except ProbeFault Bool
  search : Option Regex → Bytes → Option Regex.Span

namespace Means

/-- The means of the engine. -/
def usual : Means := ⟨Value.compare, fun pattern window => pattern.bind (·.search window)⟩

/-- Nothing is compared where any value is accepted. -/
def accepts (m : Means) (actual expected : Value) (operator : Operator) :
    Except ProbeFault Bool :=
  if operator = .any then .ok true else m.compare actual expected operator

end Means

namespace Test

def compareDecodedBy (m : Means) (s : Stream) (offset : Offset) (size : Nat)
    (decode : Bytes → Value) (expected : Value) (operator : Operator)
    (shown : Value → Option Text) : Except ProbeFault (Option Hit) := do
  match ← ProbeFault.ofRead (readExactly s offset size) with
  | none => pure none
  | some (position, raw) =>
    let value := decode raw
    if ← m.accepts value expected operator then
      pure (some ⟨some (position + size), shown value⟩)
    else pure none

def hitBy (m : Means) (s : Stream) : Test → Except ProbeFault (Option Hit)
  | .integer t =>
    compareDecodedBy m s t.offset t.width.octets
      (fun b => .int (t.width.decode t.signed t.endianness b)) (.ofInt? t.expected) t.operator
      fun _ => none
  | .real t =>
    compareDecodedBy m s t.offset t.type.octets (fun b => .real (t.type.decode t.endianness b))
      (.ofReal? t.expected) t.operator fun _ => none
  | .date t =>
    compareDecodedBy m s t.offset t.scale.width.octets
      (fun b => .int (t.scale.width.decode false t.endianness b))
      (.ofInt? t.expected) t.operator fun
        | .int n => (Instant.text (t.scale.instant n) t.isLocal).toOption
        | _ => none
  | .literal t =>
    compareDecodedBy m s t.offset t.literal.length .bytes (.bytes t.literal) t.operator
      fun _ => none
  | .guid t =>
    compareDecodedBy m s t.offset Guid.size (fun b => .text (Guid.text b)) (.ofText? t.literal)
      t.operator fun _ => none
  | .regex t => t.hit (m.search t.pattern) s
  | t => t.hit s

def evaluateBy (m : Means) (s : Stream) (template : Text) (t : Test) :
    Except ProbeFault Outcome := do
  t.checkOperator
  match ← t.hitBy m s with
  | none => pure none
  | some hit => some <$> Template.render s hit.position template hit.shown

/-- The values of the kind that a test reads, in the range of its type. -/
def Compares : Test → Value → Prop
  | .integer t, .int n => t.width.Holds t.signed n
  | .date t, .int n => t.scale.width.Holds false n
  | .real _, .real _ => True
  | .literal _, .bytes _ => True
  | .guid _, .text _ => True
  | _, _ => False

end Test

/-- These means may differ from the usual ones, but not in what the test is about. -/
structure Means.Serves (m : Means) (t : Test) : Prop where
  compare : ∀ a b o, t.Compares a → t.Compares b → m.compare a b o = a.compare b o
  search : ∀ p window, m.search (some p) window = p.search window

namespace Test

variable {m : Means} {s : Stream}

theorem compareDecodedBy_eq {offset : Offset} {size : Nat} {decode : Bytes → Value}
    {expected : Value} {o : Operator} {shown : Value → Option Text}
    (h : o ≠ .any → ∀ raw, m.compare (decode raw) expected o = (decode raw).compare expected o) :
    compareDecodedBy m s offset size decode expected o shown =
      compareDecoded s offset size decode expected o shown := by
  have haccepts : ∀ raw, m.accepts (decode raw) expected o = (decode raw).compare expected o := by
    intro raw
    by_cases hany : o = .any
    · rw [Means.accepts, if_pos hany, hany]
      rfl
    · rw [Means.accepts, if_neg hany, h hany raw]
  simp only [compareDecodedBy, haccepts]
  rfl

/-- By the usual means every test has its own outcome, compiled or not. -/
theorem evaluateBy_usual (s : Stream) (template : Text) (t : Test) :
    t.evaluateBy .usual s template = t.evaluate s template := by
  have hhit : t.hitBy .usual s = t.hit s := by
    unfold hitBy hit
    cases t with
    | regex t => rfl
    | fallback offset => rfl
    | unsupported keyword offset value => rfl
    | bare offset operator expected => rfl
    | _ => exact compareDecodedBy_eq fun _ _ => rfl
  rw [evaluateBy, hhit]
  rfl

theorem hitBy_regex {t : RegexTest} (hw : (Test.regex t).WellFormed)
    (hm : m.Serves (.regex t)) : t.hit (m.search t.pattern) s = t.hit t.find s := by
  by_cases hany : t.operator = .any
  · simp only [RegexTest.hit, if_pos hany]
  · obtain ⟨p, hp⟩ := Option.isSome_iff_exists.mp (hw.mpr hany)
    have hsearch : m.search t.pattern = t.find := by
      funext window
      rw [RegexTest.find, hp, hm.search]
      rfl
    rw [hsearch]

/-- What is read is in the range of the type, and so is what it is compared with. -/
theorem hitBy_eq {t : Test} (hw : t.WellFormed) (hm : m.Serves t) : t.hitBy m s = t.hit s := by
  unfold hitBy hit
  cases t with
  | integer t =>
    refine compareDecodedBy_eq fun hany raw => ?_
    obtain ⟨hsome, hrange⟩ := hw
    obtain ⟨n, hn⟩ := Option.isSome_iff_exists.mp (hsome.mpr hany)
    rw [hn]
    exact hm.compare _ _ _ (t.width.holds_wrap _ _) (hrange n hn)
  | real t =>
    refine compareDecodedBy_eq fun hany raw => ?_
    obtain ⟨d, hd⟩ := Option.isSome_iff_exists.mp (hw.mpr hany)
    rw [hd]
    exact hm.compare _ _ _ trivial trivial
  | date t =>
    refine compareDecodedBy_eq fun hany raw => ?_
    obtain ⟨hsome, hrange⟩ := hw
    obtain ⟨n, hn⟩ := Option.isSome_iff_exists.mp (hsome.mpr hany)
    rw [hn]
    exact hm.compare _ _ _ (t.scale.width.holds_wrap _ _) (hrange n hn)
  | literal t => exact compareDecodedBy_eq fun _ raw => hm.compare _ _ _ trivial trivial
  | guid t =>
    obtain ⟨u, hu, -⟩ := hw
    refine compareDecodedBy_eq fun _ raw => ?_
    rw [hu]
    exact hm.compare _ _ _ trivial trivial
  | regex t => exact hitBy_regex hw hm
  | fallback offset => rfl
  | unsupported keyword offset value => rfl
  | bare offset operator expected => rfl

theorem evaluateBy_eq {t : Test} (hw : t.WellFormed) (hm : m.Serves t) (s : Stream)
    (template : Text) : t.evaluateBy m s template = t.evaluate s template := by
  rw [evaluateBy, hitBy_eq hw hm]
  rfl

end Test

namespace RuleText

/-- A test is compiled for its type, with what it compares with, and compares nothing else. -/
theorem readLine_wellFormed [RegexEngine] {line : Text} {e : Entry} (h : readLine line = .ok e) :
    (∃ offsetText typeText rest type, line.words = offsetText :: typeText :: rest ∧
      readType typeText = .ok type ∧ e.test.HasType type) ∧
    e.test.WellFormed ∧
    ∀ m : Means, m.Serves e.test → ∀ s template,
      e.test.evaluateBy m s template = e.test.evaluate s template := by
  obtain ⟨offsetText, typeText, rest, type, hwords, htype, htest⟩ := readLine_compiled h
  refine ⟨⟨offsetText, typeText, rest, type, hwords, htype, htest.hasType⟩, htest.wellFormed, ?_⟩
  intro m hm s template
  exact Test.evaluateBy_eq htest.wellFormed hm s template

/-- A value below zero that is expected of an unsigned type, by means that compare nothing with
what is absent. -/
theorem readLine_wellFormed_below_zero :
    ∃ (e : Entry) (m : Means) (t : IntegerTest) (s : Stream),
      readLine ">0 ubyte -1 ones".toList = .ok e ∧ e.test = .integer t ∧
      t.expected = some 255 ∧ t.width.Holds false 255 ∧ m.Serves e.test ∧
      m.compare (.int 0) .absent .equal = .ok true ∧
      e.test.evaluateBy m s "ones".toList = .ok (some "ones".toList) := by
  let t : IntegerTest := ⟨.fixed 0, .byte, false, .native, .equal, some 255⟩
  let e : Entry := ⟨1, .integer t, "ones".toList⟩
  let m : Means := ⟨fun a b o => if b = .absent then .ok true else a.compare b o, fun p window =>
    match p with
    | none => some ⟨0, 0⟩
    | some p => p.search window⟩
  let s : Stream := .ofBytes [0xff]
  have hline : readLine ">0 ubyte -1 ones".toList = .ok e := rfl
  have hm : m.Serves e.test := by
    refine ⟨fun a b o _ hb => if_neg ?_, fun p window => rfl⟩
    intro habsent
    rw [habsent] at hb
    exact hb
  obtain ⟨-, hwellFormed, hevaluate⟩ := readLine_wellFormed hline
  have hwellFormed' : (Test.integer t).WellFormed := hwellFormed
  have hrange : t.width.Holds false 255 := hwellFormed'.2 255 rfl
  have houtcome : (Test.integer ⟨.fixed 0, .byte, false, .native, .equal, some 255⟩).evaluate
      (.ofBytes [0xff]) "ones".toList = .ok (some "ones".toList) := rfl
  refine ⟨e, m, t, s, hline, rfl, rfl, hrange, hm, rfl, ?_⟩
  exact (hevaluate m hm s _).trans houtcome

end RuleText
end FileMagic
