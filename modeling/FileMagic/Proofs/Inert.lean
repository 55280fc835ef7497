import FileMagic.Proofs.Scan

/-! # Entries that never match

An entry whose test is not evaluated can be left out of a pass, and with it the entries below it:
those that are deeper, up to the first that is not. The list that remains nests, and a pass over it
gives the same (`run_without`). Going over the entries that are left out changes the flags only at
their own depths, and the pass goes on with an entry no deeper than the first of them, which reads
other flags (`SameUpTo`). -/

namespace FileMagic

/-- A test whose keyword is known but not evaluated. -/
def Test.isInert : Test → Bool
  | .unsupported .. => true
  | _ => false

theorem Test.evaluate_of_isInert {t : Test} (h : t.isInert = true) (s : Stream) (message : Text) :
    t.evaluate s message = .ok none := by
  cases t with
  | unsupported keyword offset value => rfl
  | _ => cases h

namespace Forest

/-- How deep the entry after these may be. -/
def room (limit : Nat) : List Entry → Nat
  | [] => limit
  | e :: rest => room (e.depth + 1) rest

theorem nested_append {limit : Nat} {entries more : List Entry} :
    Nested limit (entries ++ more) ↔ Nested limit entries ∧ Nested (room limit entries) more := by
  induction entries generalizing limit with
  | nil => exact ⟨fun h => ⟨trivial, h⟩, And.right⟩
  | cons e rest ih => exact (and_congr_right fun _ => ih).trans and_assoc.symm

/-- The entries after those that are deeper. -/
theorem Nested.dropWhile {limit : Nat} {entries : List Entry} (h : Nested limit entries)
    (depth : Nat) : Nested depth (entries.dropWhile fun x => depth < x.depth) := by
  induction entries generalizing limit with
  | nil => trivial
  | cons e rest ih =>
    by_cases he : depth < e.depth
    · rw [List.dropWhile_cons_of_pos (by simpa using he)]
      exact ih h.2
    · rw [List.dropWhile_cons_of_neg (by simpa using he)]
      exact ⟨Nat.le_of_not_lt he, h.2⟩

/-- An entry can be left out together with the entries below it. -/
theorem Nested.without {limit : Nat} {before after : List Entry} {e : Entry}
    (h : Nested limit (before ++ e :: after)) :
    Nested limit (before ++ after.dropWhile fun x => e.depth < x.depth) := by
  obtain ⟨hbefore, hle, hafter⟩ := nested_append.mp h
  exact nested_append.mpr ⟨hbefore, (hafter.dropWhile e.depth).mono hle⟩

end Forest

namespace Scan
open Forest

variable {s : Stream} {σ σ' : Scan} {e : Entry} {entries : List Entry} {depth limit : Nat}

/-! ## States that look the same -/

/-- No entry that is at most `limit` deep tells the states apart. -/
abbrev SameUpTo (limit : Nat) (σ σ' : Scan) : Prop := Gains limit σ σ' [] false

namespace SameUpTo

theorem messages_same (h : SameUpTo limit σ σ') : σ'.messages = σ.messages :=
  h.messages_eq.trans (List.append_nil _)

theorem taken_same (h : SameUpTo limit σ σ') {d : Nat} (hd : d ≤ limit) :
    σ'.taken d = σ.taken d := by
  rcases Nat.lt_or_eq_of_le hd with hlt | rfl
  · exact h.taken_eq d hlt
  · exact h.taken_depth.trans (Bool.or_false _)

theorem trans {σ'' : Scan} (h : SameUpTo limit σ σ') (h' : SameUpTo limit σ' σ'') :
    SameUpTo limit σ σ'' := Gains.trans h h'

theorem mono (h : SameUpTo limit σ σ') (hd : depth ≤ limit) : SameUpTo depth σ σ' where
  messages_eq := h.messages_eq
  matched_eq d hlt := h.matched_eq d (Nat.lt_of_lt_of_le hlt hd)
  taken_eq d hlt := h.taken_eq d (Nat.lt_of_lt_of_le hlt hd)
  taken_depth := (h.taken_same hd).trans (Bool.or_false _).symm

theorem isDue_eq (h : SameUpTo limit σ σ') (he : e.depth ≤ limit) : σ'.isDue e = σ.isDue e := by
  unfold isDue
  cases hd : e.depth with
  | zero => simp only [h.taken_same (Nat.zero_le limit)]
  | succ d =>
    rw [hd] at he
    simp only [h.matched_eq d he, h.taken_same he]

/-- The next entry leaves the flags at its depth and one below alike. -/
theorem after (h : SameUpTo limit σ σ') (he : depth ≤ limit) (own : Outcome) :
    SameUpTo (depth + 1) (σ.after depth own) (σ'.after depth own) where
  messages_eq := by simp only [Scan.after, h.messages_same, List.append_nil]
  matched_eq d hd := by
    by_cases hown : d = depth
    · simp only [Scan.after, if_pos hown]
    · simp only [Scan.after, if_neg hown, h.matched_eq d (by omega)]
  taken_eq d hd := by
    simp only [Scan.after, h.taken_same (show d ≤ limit by omega)]
  taken_depth := by simp only [taken_after_below, Bool.or_false]

theorem step (h : SameUpTo limit σ σ') (he : e.depth ≤ limit) :
    Alike (SameUpTo (e.depth + 1)) (Scan.step s σ e) (Scan.step s σ' e) := by
  cases hdue : σ.isDue e with
  | false =>
    rw [step_of_not_due hdue, step_of_not_due ((h.isDue_eq he).trans hdue)]
    exact .ok (h.after he none)
  | true =>
    rw [step_of_due hdue, step_of_due ((h.isDue_eq he).trans hdue)]
    cases e.test.evaluate s e.message with
    | error f => exact .error f
    | ok own => exact .ok (h.after he own)

/-- Entries that nest are passed alike. -/
theorem foldlM (h : SameUpTo limit σ σ') (hn : Nested limit entries) :
    Alike (SameUpTo 0) (entries.foldlM (Scan.step s) σ) (entries.foldlM (Scan.step s) σ') := by
  induction entries generalizing σ σ' limit with
  | nil => exact .ok (h.mono (Nat.zero_le limit))
  | cons e rest ih =>
    rw [List.foldlM_cons, List.foldlM_cons]
    exact (h.step hn.1).bind fun _ _ hnext => ih hnext hn.2

end SameUpTo

/-! ## What is passed over -/

theorem step_of_isInert (he : e.test.isInert = true) :
    step s σ e = .ok (σ.after e.depth none) := by
  cases hdue : σ.isDue e with
  | false => exact step_of_not_due hdue
  | true =>
    rw [step_of_due hdue, Test.evaluate_of_isInert he]
    rfl

/-- No entry from `depth` on, down to the limit, has matched. -/
def Unmatched (depth limit : Nat) (σ : Scan) : Prop :=
  ∀ d, depth ≤ d → d < limit → σ.matched d = false

theorem Unmatched.after (h : Unmatched depth limit σ) {d : Nat} (hd : d ≤ limit) :
    Unmatched depth (d + 1) (σ.after d none) := by
  intro d' hle hlt
  by_cases heq : d' = d
  · subst heq
    exact matched_after d' σ none
  · have hbelow : d' < limit := by omega
    simp only [Scan.after, if_neg heq, h d' hle hbelow]

/-- Entries below one that has not matched are not evaluated. -/
theorem foldlM_of_unmatched (h : Unmatched depth limit σ) (hn : Nested limit entries)
    (hdeep : ∀ x ∈ entries, depth < x.depth) :
    ∃ σ', entries.foldlM (step s) σ = .ok σ' ∧ SameUpTo depth σ σ' := by
  induction entries generalizing σ limit with
  | nil => exact ⟨σ, rfl, Gains.refl depth σ⟩
  | cons e rest ih =>
    obtain ⟨he, hrest⟩ := List.forall_mem_cons.mp hdeep
    have hblocked : Blocked e.depth σ := by
      obtain ⟨d, hd⟩ : ∃ d, e.depth = d + 1 := ⟨e.depth - 1, by omega⟩
      have hle := hn.1
      rw [hd] at he hle ⊢
      exact h d (Nat.le_of_lt_succ he) hle
    obtain ⟨σ', hfold, hsame⟩ := ih (h.after hn.1) hn.2 hrest
    have hpassed : SameUpTo e.depth σ (σ.after e.depth none) := gains_after e.depth σ none
    refine ⟨σ', ?_, (hpassed.mono (Nat.le_of_lt he)).trans hsame⟩
    rw [List.foldlM_cons, step_of_not_due hblocked.isDue_eq_false, ok_bind, hfold]

/-- An entry that is not evaluated, and the entries below it. -/
theorem foldlM_of_isInert {below : List Entry} (he : e.test.isInert = true)
    (hn : Nested (e.depth + 1) below) (hdeep : ∀ x ∈ below, e.depth < x.depth) :
    ∃ σ', (e :: below).foldlM (step s) σ = .ok σ' ∧ SameUpTo e.depth σ σ' := by
  have hunmatched : Unmatched e.depth (e.depth + 1) (σ.after e.depth none) := by
    intro d hle hlt
    obtain rfl : d = e.depth := by omega
    exact matched_after _ σ none
  obtain ⟨σ', hfold, hsame⟩ := foldlM_of_unmatched (s := s) hunmatched hn hdeep
  have hpassed : SameUpTo e.depth σ (σ.after e.depth none) := gains_after e.depth σ none
  refine ⟨σ', ?_, hpassed.trans hsame⟩
  rw [List.foldlM_cons, step_of_isInert he, ok_bind, hfold]

/-- Leaving out an entry that is not evaluated, together with the entries below it, changes
nothing. -/
theorem run_without {before after : List Entry} (hn : Nested 0 (before ++ e :: after))
    (he : e.test.isInert = true) :
    run s (before ++ after.dropWhile fun x => e.depth < x.depth) =
      run s (before ++ e :: after) := by
  obtain ⟨-, -, hafter⟩ := nested_append.mp hn
  have hsplit : after.takeWhile (fun x => e.depth < x.depth) ++
      after.dropWhile (fun x => e.depth < x.depth) = after := List.takeWhile_append_dropWhile
  have hbelow : Nested (e.depth + 1) (after.takeWhile fun x => e.depth < x.depth) := by
    rw [← hsplit] at hafter
    exact (nested_append.mp hafter).1
  have hdeep : ∀ x ∈ after.takeWhile (fun x => e.depth < x.depth), e.depth < x.depth := by
    intro x hx
    simpa using List.all_eq_true.mp List.all_takeWhile x hx
  have hpass : Alike (SameUpTo 0)
      ((before ++ after.dropWhile fun x => e.depth < x.depth).foldlM (step s) start)
      ((before ++ e :: after).foldlM (step s) start) := by
    rw [List.foldlM_append, List.foldlM_append]
    cases before.foldlM (step s) start with
    | error f => exact .error f
    | ok σ =>
      obtain ⟨σ', hfold, hsame⟩ := foldlM_of_isInert (s := s) (σ := σ) he hbelow hdeep
      have hcut : (e :: after).foldlM (step s) σ =
          (after.dropWhile fun x => e.depth < x.depth).foldlM (step s) σ' := by
        conv_lhs => rw [← hsplit]
        rw [← List.cons_append, List.foldlM_append, hfold, ok_bind]
      rw [ok_bind, ok_bind, hcut]
      exact hsame.foldlM (hafter.dropWhile e.depth)
  refine hpass.map_congr fun σ σ' hsame => ?_
  rw [hsame.messages_same, hsame.taken_same (Nat.le_refl 0)]

end Scan
end FileMagic
