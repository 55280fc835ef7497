import FileMagic.Pattern.Engine
import FileMagic.Proofs.Scan

/-! # Which entries are evaluated

The flags of a pass say what the entries before did: an entry at the top is evaluated when none
at the top has matched before it, any other one when the last entry one level up was evaluated
and matched, and for a fallback no entry since then at its own depth. Both flags of a depth are
read off the same question (`HitSince`), whose answer changes with one entry in one way. -/

namespace FileMagic.Scan

variable {s : Stream}

/-- The entry that comes after `before` is evaluated and matches. -/
def Hits (s : Stream) (before : List Entry) (e : Entry) : Prop :=
  ∃ σ own, before.foldlM (step s) start = .ok σ ∧ σ.isDue e = true ∧
    e.test.evaluate s e.message = .ok (some own)

/-- An entry at a depth has matched, and no entry since then is one of those that `stop`. -/
def HitSince (s : Stream) (stop : Entry → Prop) (depth : Nat) (entries : List Entry) : Prop :=
  ∃ before e since, entries = before ++ e :: since ∧ e.depth = depth ∧ Hits s before e ∧
    ∀ x ∈ since, ¬ stop x

theorem not_hitSince_nil {stop : Entry → Prop} {depth : Nat} :
    ¬ HitSince s stop depth [] := by
  intro h
  obtain ⟨before, e, since, h, -⟩ := h
  exact List.append_ne_nil_of_right_ne_nil before (List.cons_ne_nil e since) h.symm

theorem hitSince_concat {stop : Entry → Prop} {depth : Nat} {entries : List Entry} {e : Entry} :
    HitSince s stop depth (entries ++ [e]) ↔
      (e.depth = depth ∧ Hits s entries e) ∨ (¬ stop e ∧ HitSince s stop depth entries) := by
  constructor
  · intro h
    obtain ⟨before, x, since, heq, hd, hx, hs⟩ := h
    rcases List.eq_nil_or_concat since with rfl | ⟨since, y, rfl⟩
    · obtain ⟨rfl, hlast⟩ := List.append_inj' heq rfl
      cases hlast
      exact .inl ⟨hd, hx⟩
    · rw [List.concat_eq_append, ← List.cons_append, ← List.append_assoc] at heq
      obtain ⟨rfl, hlast⟩ := List.append_inj' heq rfl
      cases hlast
      refine .inr ⟨hs e (by simp), before, x, since, rfl, hd, hx, ?_⟩
      intro z hz
      exact hs z (by simp [hz])
  · intro h
    rcases h with ⟨hd, he⟩ | ⟨hstop, before, x, since, rfl, hd, hx, hs⟩
    · exact ⟨entries, e, [], rfl, hd, he, by simp⟩
    · refine ⟨before, x, since ++ [e], by simp, hd, hx, ?_⟩
      intro z hz
      rcases List.mem_append.mp hz with hz | hz
      · exact hs z hz
      · rw [List.mem_singleton.mp hz]
        exact hstop

/-- One more entry: it leaves its message if it is evaluated and matches. -/
theorem step_eq_ok {σ σ' : Scan} {e : Entry} {entries : List Entry}
    (hσ : entries.foldlM (step s) start = .ok σ) (h : step s σ e = .ok σ') :
    ∃ own, σ' = σ.after e.depth own ∧ (own.isSome = true ↔ Hits s entries e) := by
  cases hdue : σ.isDue e with
  | false =>
    rw [step_of_not_due hdue, Except.ok.injEq] at h
    refine ⟨none, h.symm, by simp, ?_⟩
    intro hits
    obtain ⟨σ₂, own, hσ₂, hdue₂, -⟩ := hits
    rw [hσ, Except.ok.injEq] at hσ₂
    rw [← hσ₂, hdue] at hdue₂
    cases hdue₂
  | true =>
    rw [step_of_due hdue, map_eq_ok_iff] at h
    obtain ⟨own, hown, rfl⟩ := h
    refine ⟨own, rfl, fun hs => ?_, ?_⟩
    · obtain ⟨t, rfl⟩ := Option.isSome_iff_exists.mp hs
      exact ⟨σ, t, hσ, hdue, hown⟩
    · intro hits
      obtain ⟨-, t, -, -, ht⟩ := hits
      rw [hown, Except.ok.injEq] at ht
      rw [ht]
      rfl

/-- What the flags mean. -/
theorem flags_iff {entries : List Entry} {σ : Scan}
    (hσ : entries.foldlM (step s) start = .ok σ) (d : Nat) :
    (σ.matched d = true ↔ HitSince s (fun x => x.depth = d) d entries) ∧
      (σ.taken d = true ↔ HitSince s (fun x => x.depth + 1 = d) d entries) := by
  induction entries using List.reverseRec generalizing σ with
  | nil =>
    cases hσ
    exact ⟨iff_of_false Bool.false_ne_true not_hitSince_nil,
      iff_of_false Bool.false_ne_true not_hitSince_nil⟩
  | append_singleton entries e ih =>
    rw [List.foldlM_append, bind_eq_ok_iff] at hσ
    obtain ⟨σ₀, h₀, h₁⟩ := hσ
    rw [List.foldlM_cons, bind_eq_ok_iff] at h₁
    obtain ⟨σ₁, h₁, h⟩ := h₁
    cases h
    obtain ⟨own, rfl, hown⟩ := step_eq_ok h₀ h₁
    obtain ⟨hm, ht⟩ := ih h₀
    rw [hitSince_concat, hitSince_concat, ← hm, ← ht, ← hown]
    by_cases hd : d = e.depth
    · subst hd
      simp [after, or_comm]
    · by_cases hd' : d = e.depth + 1
      · subst hd'
        simp [after]
      · have hne : e.depth ≠ d := fun h => hd h.symm
        have hne' : e.depth + 1 ≠ d := fun h => hd' h.symm
        simp [after, hd, hd', hne, hne']

/-- The entry that comes after `before` is evaluated. -/
def Due (s : Stream) (before : List Entry) (e : Entry) : Prop :=
  match e.depth with
  | 0 => ∀ earlier x between, before = earlier ++ x :: between → x.depth = 0 →
      ¬ Hits s earlier x
  | d + 1 => ∃ earlier parent between, before = earlier ++ parent :: between ∧
      parent.depth = d ∧ Hits s earlier parent ∧ (∀ x ∈ between, x.depth ≠ d) ∧
      (e.test.isFallback = true → ∀ older x newer, between = older ++ x :: newer →
        x.depth = d + 1 → ¬ Hits s (earlier ++ parent :: older) x)

theorem hitSince_top_iff {entries : List Entry} :
    HitSince s (fun x => x.depth + 1 = 0) 0 entries ↔
      ∃ earlier x between, entries = earlier ++ x :: between ∧ x.depth = 0 ∧
        Hits s earlier x := by
  simp [HitSince]

/-- Since the last entry at a depth, what has matched one level below is among the entries that
came after it. -/
theorem hitSince_below_iff {earlier between : List Entry} {parent : Entry}
    (hb : ∀ x ∈ between, x.depth ≠ parent.depth) :
    HitSince s (fun x => x.depth + 1 = parent.depth + 1) (parent.depth + 1)
        (earlier ++ parent :: between) ↔
      ∃ older x newer, between = older ++ x :: newer ∧ x.depth = parent.depth + 1 ∧
        Hits s (earlier ++ parent :: older) x := by
  constructor
  · intro h
    obtain ⟨before, x, since, heq, hd, hx, hs⟩ := h
    rcases List.append_eq_append_iff.mp heq with ⟨mid, rfl, hmid⟩ | ⟨mid, rfl, hmid⟩
    · cases mid with
      | nil =>
        cases hmid
        omega
      | cons y older =>
        rw [List.cons_append, List.cons.injEq] at hmid
        obtain ⟨rfl, rfl⟩ := hmid
        exact ⟨older, x, since, rfl, hd, hx⟩
    · cases mid with
      | nil =>
        cases hmid
        omega
      | cons y mid =>
        rw [List.cons_append, List.cons.injEq] at hmid
        obtain ⟨rfl, rfl⟩ := hmid
        exact absurd rfl (hs parent (by simp))
  · intro h
    obtain ⟨older, x, newer, rfl, hd, hx⟩ := h
    refine ⟨earlier ++ parent :: older, x, newer, by simp, hd, hx, ?_⟩
    intro y hy h
    exact hb y (by simp [hy]) (by omega)

theorem isDue_iff {before : List Entry} {σ : Scan} {e : Entry}
    (hσ : before.foldlM (step s) start = .ok σ) : σ.isDue e = true ↔ Due s before e := by
  unfold isDue Due
  cases e.depth with
  | zero =>
    have ht := (flags_iff hσ 0).2
    rw [hitSince_top_iff] at ht
    rw [Bool.not_eq_true', Bool.eq_false_iff, Ne, ht]
    constructor
    · intro h earlier x between heq hd hx
      exact h ⟨earlier, x, between, heq, hd, hx⟩
    · intro h hearlier
      obtain ⟨earlier, x, between, heq, hd, hx⟩ := hearlier
      exact h earlier x between heq hd hx
  | succ d =>
    have hm := (flags_iff hσ d).1
    have ht := (flags_iff hσ (d + 1)).2
    simp only [Bool.and_eq_true, Bool.not_eq_true', Bool.eq_false_iff, Ne, hm, ht, not_and]
    constructor
    · intro hdue
      obtain ⟨⟨earlier, parent, between, rfl, rfl, hp, hb⟩, hfree⟩ := hdue
      refine ⟨earlier, parent, between, rfl, rfl, hp, hb, ?_⟩
      intro hf older x newer heq hd hx
      exact hfree hf ((hitSince_below_iff hb).mpr ⟨older, x, newer, heq, hd, hx⟩)
    · intro hdue
      obtain ⟨earlier, parent, between, rfl, rfl, hp, hb, hfree⟩ := hdue
      refine ⟨⟨earlier, parent, between, rfl, rfl, hp, hb⟩, fun hf hsince => ?_⟩
      obtain ⟨older, x, newer, heq, hd, hx⟩ := (hitSince_below_iff hb).mp hsince
      exact hfree hf older x newer heq hd hx

/-- The rules of a text match as one pass over its lines does, in which the entries that are due
are evaluated, and those that are not leave nothing behind. -/
theorem matching_eq_run [RegexEngine] {text : Text} {rules : List Rule}
    (h : RuleText.compile text = .ok rules) (s : Stream) :
    ∃ entries, RuleText.Reads text.lines entries ∧ Forest.Nested 0 entries ∧
      (Database.mk rules).matching s = run s entries ∧
      ∀ before e after, entries = before ++ e :: after →
        ∀ σ, before.foldlM (step s) start = .ok σ →
          (Due s before e → step s σ e = (e.test.evaluate s e.message).map (σ.after e.depth)) ∧
          (¬ Due s before e → step s σ e = .ok (σ.after e.depth none)) := by
  refine ⟨Forest.toEntries rules, RuleText.compileLines_eq_ok_iff.mp h,
    Forest.nested_toEntries rules, matching_eq_run_toEntries ⟨rules⟩ s, ?_⟩
  intro before e after _ σ hσ
  refine ⟨fun hdue => step_of_due ((isDue_iff hσ).mpr hdue), fun hdue => ?_⟩
  have hnot : σ.isDue e ≠ true := fun h => hdue ((isDue_iff hσ).mp h)
  exact step_of_not_due (Bool.eq_false_iff.mpr hnot)

/-- A fallback is evaluated where its siblings have not matched, and says what it has to say
below what its parent says. Another one, behind a sibling that has matched, is not. -/
theorem matching_eq_run_catch_all :
    ∃ rules entries,
      RuleText.compile ("0 byte 1 one\n>1 byte 2 two\n>1 default x other\n".toList ++
        ">1 byte 3 three\n>1 default x never".toList) = .ok rules ∧
      (Database.mk rules).matching (.ofBytes [1, 3]) = run (.ofBytes [1, 3]) entries ∧
      run (.ofBytes [1, 3]) entries =
        .ok (some ["one".toList, "other".toList, "three".toList]) := by
  have h : RuleText.compile ("0 byte 1 one\n>1 byte 2 two\n>1 default x other\n".toList ++
      ">1 byte 3 three\n>1 default x never".toList) = .ok
      [⟨.integer ⟨.fixed 0, .byte, true, .native, .equal, some 1⟩, "one".toList,
        [⟨.integer ⟨.fixed 1, .byte, true, .native, .equal, some 2⟩, "two".toList, []⟩,
          ⟨.fallback (.fixed 1), "other".toList, []⟩,
          ⟨.integer ⟨.fixed 1, .byte, true, .native, .equal, some 3⟩, "three".toList, []⟩,
          ⟨.fallback (.fixed 1), "never".toList, []⟩]⟩] := rfl
  obtain ⟨entries, -, -, hrun, -⟩ := matching_eq_run h (.ofBytes [1, 3])
  exact ⟨_, entries, h, hrun, hrun.symm.trans rfl⟩

end FileMagic.Scan
