import FileMagic.Pattern.Match

/-! # A match lies in the text that is searched

A match is made by going on from one place of a text to another, and never back: looking behind
moves nothing, and every other step leads to the same place or further on (`run_onward`). So where a
search finds something it finds it in the text, with its end not before its start
(`search_bounds`). -/

namespace FileMagic

namespace Cursor

/-- A place of the same text that is not before this one. -/
structure Ahead (c d : Cursor) : Prop where
  position_le : c.position ≤ d.position
  stop_eq : d.position + d.after.length = c.position + c.after.length

variable {c d e : Cursor}

theorem Ahead.refl (c : Cursor) : c.Ahead c := ⟨Nat.le_refl _, rfl⟩

theorem Ahead.trans (h : c.Ahead d) (h' : d.Ahead e) : c.Ahead e :=
  ⟨Nat.le_trans h.position_le h'.position_le, h'.stop_eq.trans h.stop_eq⟩

theorem ahead_of_next? {b : UInt8} (h : c.next? false = some (b, d)) : c.Ahead d := by
  obtain ⟨before, after, position, groups⟩ := c
  cases after with
  | nil => cases h
  | cons o rest =>
    cases h
    exact ⟨Nat.le_succ _, by simp only [List.length_cons]; omega⟩

theorem ahead_of_over? {fold : Bool} {text : Bytes} (h : c.over? false fold text = some d) :
    c.Ahead d := by
  induction text generalizing c with
  | nil =>
    cases h
    exact .refl d
  | cons a rest ih =>
    rw [over?] at h
    split at h
    · cases h
    · next b c' hnext =>
      split at h
      · exact (ahead_of_next? hnext).trans (ih h)
      · cases h

end Cursor

namespace Pattern

/-- What is matched afterwards is asked at the same place or further on. -/
def Onward (m : Matcher) : Prop :=
  ∀ c k d, m c k = some d → ∃ c', c.Ahead c' ∧ k c' = some d

variable {body : Matcher}

theorem Onward.times (hbody : Onward body) (n : Nat) : Onward (times body n) := by
  induction n with
  | zero =>
    intro c k d h
    exact ⟨c, .refl c, h⟩
  | succ n ih =>
    intro c k d h
    obtain ⟨c', hc', h⟩ := hbody c _ d h
    obtain ⟨c'', hc'', h⟩ := ih c' k d h
    exact ⟨c'', hc'.trans hc'', h⟩

/-- One more iteration, and then what follows or the iterations after it. -/
theorem Onward.iterate (hbody : Onward body) {more : Matcher} (hmore : Onward more) {c d : Cursor}
    {k : Cursor → Option Cursor}
    (h : body c (fun e => if e.position = c.position then k e else more e k) = some d) :
    ∃ c', c.Ahead c' ∧ k c' = some d := by
  obtain ⟨c', hc', h⟩ := hbody c _ d h
  split at h
  · exact ⟨c', hc', h⟩
  · obtain ⟨c'', hc'', h⟩ := hmore c' k d h
    exact ⟨c'', hc'.trans hc'', h⟩

theorem Onward.greedily (hbody : Onward body) (n : Nat) : Onward (greedily body n) := by
  induction n with
  | zero =>
    intro c k d h
    exact ⟨c, .refl c, h⟩
  | succ n ih =>
    intro c k d h
    rcases Option.or_eq_some_iff.mp h with h | ⟨-, h⟩
    · exact hbody.iterate ih h
    · exact ⟨c, .refl c, h⟩

theorem Onward.lazily (hbody : Onward body) (n : Nat) : Onward (lazily body n) := by
  induction n with
  | zero =>
    intro c k d h
    exact ⟨c, .refl c, h⟩
  | succ n ih =>
    intro c k d h
    rcases Option.or_eq_some_iff.mp h with h | ⟨-, h⟩
    · exact ⟨c, .refl c, h⟩
    · exact hbody.iterate ih h

theorem Onward.alone (hbody : Onward body) : Onward (alone body) := by
  intro c k d h
  obtain ⟨e, he, h⟩ := Option.bind_eq_some_iff.mp h
  obtain ⟨c', hc', hsome⟩ := hbody c some e he
  cases hsome
  exact ⟨e, hc', h⟩

/-- The iterations beyond the least number start where that has been reached. -/
theorem Onward.repeated (hbody : Onward body) {again : Nat → Matcher}
    (hagain : ∀ n, Onward (again n)) (least : Nat) (more : Cursor → Nat) :
    Onward fun c k => Pattern.times body least c fun d => again (more d) d k := by
  intro c k d h
  obtain ⟨c', hc', h⟩ := hbody.times least c _ d h
  obtain ⟨c'', hc'', h⟩ := hagain _ c' k d h
  exact ⟨c'', hc'.trans hc'', h⟩

/-- A match is made from left to right; only what it looks at may lie before it. -/
theorem run_onward (p : Pattern) : Onward (run false p) := by
  induction p with
  | empty =>
    intro c k d h
    exact ⟨c, .refl c, h⟩
  | octet s fold =>
    intro c k d h
    rw [run] at h
    split at h
    · cases h
    · next b c' hnext =>
      split at h
      · exact ⟨c', Cursor.ahead_of_next? hnext, h⟩
      · cases h
  | seq first second ihfirst ihsecond =>
    intro c k d h
    rw [run, if_neg Bool.false_ne_true] at h
    obtain ⟨c', hc', h⟩ := ihfirst c _ d h
    obtain ⟨c'', hc'', h⟩ := ihsecond c' k d h
    exact ⟨c'', hc'.trans hc'', h⟩
  | either first second ihfirst ihsecond =>
    intro c k d h
    rcases Option.or_eq_some_iff.mp h with h | ⟨-, h⟩
    · exact ihfirst c k d h
    · exact ihsecond c k d h
  | group index body ih =>
    intro c k d h
    obtain ⟨c', hc', h⟩ := ih c _ d h
    exact ⟨c'.capture index c.position, ⟨hc'.position_le, hc'.stop_eq⟩, h⟩
  | again index fold =>
    intro c k d h
    rw [run] at h
    split at h
    · cases h
    · obtain ⟨c', hc', h⟩ := Option.bind_eq_some_iff.mp h
      exact ⟨c', Cursor.ahead_of_over? hc', h⟩
  | repeated body least most greed ih =>
    intro c k d h
    cases greed with
    | greedy => exact ih.repeated ih.greedily least _ c k d h
    | lazy => exact ih.repeated ih.lazily least _ c k d h
    | possessive => exact (ih.repeated ih.greedily least _).alone c k d h
  | atomic body ih => exact ih.alone
  | look toLeft positive body _ =>
    intro c k d h
    rw [run] at h
    split at h
    · split at h
      · next e _ _ => exact ⟨{ c with groups := e.groups }, ⟨Nat.le_refl _, rfl⟩, h⟩
      · cases h
    · split at h
      · cases h
      · exact ⟨c, .refl c, h⟩
  | anchor a =>
    intro c k d h
    rw [run] at h
    split at h
    · exact ⟨c, .refl c, h⟩
    · cases h

theorem stop_bounds {p : Pattern} {c d : Cursor} (h : run false p c some = some d) :
    c.position ≤ d.position ∧ d.position ≤ c.position + c.after.length := by
  obtain ⟨c', hc', hsome⟩ := run_onward p c some d h
  cases hsome
  exact ⟨hc'.position_le, Nat.le_trans (Nat.le_add_right _ _) (Nat.le_of_eq hc'.stop_eq)⟩

theorem searchFrom_bounds {p : Pattern} {before text : Bytes} {position : Nat} {span : Regex.Span}
    (h : p.searchFrom before position text = some span) :
    span.start ≤ span.stop ∧ span.stop ≤ position + text.length := by
  induction text generalizing before position with
  | nil =>
    obtain ⟨d, hd, rfl⟩ := Option.map_eq_some_iff.mp h
    exact stop_bounds hd
  | cons b rest ih =>
    rw [searchFrom] at h
    split at h
    · next d hd =>
      cases h
      exact stop_bounds hd
    · obtain ⟨hstart, hstop⟩ := ih h
      rw [List.length_cons]
      exact ⟨hstart, by omega⟩

theorem search_bounds {p : Pattern} {text : Bytes} {span : Regex.Span}
    (h : p.search text = some span) :
    span.start ≤ span.stop ∧ span.stop ≤ text.length := by
  obtain ⟨hstart, hstop⟩ := searchFrom_bounds h
  exact ⟨hstart, by omega⟩

end Pattern
end FileMagic
