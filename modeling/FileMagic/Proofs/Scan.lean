import FileMagic.Database
import FileMagic.Proofs.Compile
import Mathlib.Data.List.Induction

/-! # Matching in one pass

A database can be matched without its trees: one pass over the entries in order, which keeps
two flags for each depth and the messages so far. `matching_eq_run_toEntries` says that walking
the trees gives the same, faults included. A walk of a tree is a stretch of the pass: it leaves
the flags of all shallower depths as they were (`Gains`), and where a walk goes past a tree, the
pass goes over its entries without evaluating one. -/

namespace FileMagic

/-- What a pass over entries keeps. -/
structure Scan where
  /-- The last entry at this depth was evaluated and matched. -/
  matched : Nat → Bool
  /-- An entry at this depth has matched since the last one a level above. -/
  taken : Nat → Bool
  messages : List Text

namespace Scan

def start : Scan := ⟨fun _ => false, fun _ => false, []⟩

/-- Whether the next entry is evaluated. -/
def isDue (σ : Scan) (e : Entry) : Bool :=
  match e.depth with
  | 0 => !σ.taken 0
  | d + 1 => σ.matched d && !(e.test.isFallback && σ.taken (d + 1))

/-- The state after an entry at a depth, with its message if it matched. -/
def after (σ : Scan) (depth : Nat) (own : Outcome) : Scan where
  matched d := if d = depth then own.isSome else σ.matched d
  taken d :=
    if d = depth then σ.taken d || own.isSome
    else if d = depth + 1 then false
    else σ.taken d
  messages := σ.messages ++ own.toList

def step (s : Stream) (σ : Scan) (e : Entry) : Except ProbeFault Scan :=
  if σ.isDue e then (e.test.evaluate s e.message).map (σ.after e.depth)
  else .ok (σ.after e.depth none)

/-- The messages of a whole pass, if an entry at the top matches. -/
def run (s : Stream) (entries : List Entry) : Except ProbeFault (Option (List Text)) :=
  (entries.foldlM (step s) start).map fun σ => if σ.taken 0 then some σ.messages else none

/-- What a stretch of a pass at `depth` and below has changed. -/
structure Gains (depth : Nat) (σ σ' : Scan) (messages : List Text) (took : Bool) : Prop where
  messages_eq : σ'.messages = σ.messages ++ messages
  matched_eq : ∀ d < depth, σ'.matched d = σ.matched d
  taken_eq : ∀ d < depth, σ'.taken d = σ.taken d
  taken_depth : σ'.taken depth = (σ.taken depth || took)

theorem Gains.refl (depth : Nat) (σ : Scan) : Gains depth σ σ [] false :=
  ⟨(List.append_nil _).symm, fun _ _ => rfl, fun _ _ => rfl, (Bool.or_false _).symm⟩

theorem Gains.trans {depth : Nat} {σ σ' σ'' : Scan} {messages messages' : List Text}
    {took took' : Bool} (h : Gains depth σ σ' messages took)
    (h' : Gains depth σ' σ'' messages' took') :
    Gains depth σ σ'' (messages ++ messages') (took || took') where
  messages_eq := by rw [h'.messages_eq, h.messages_eq, List.append_assoc]
  matched_eq d hd := (h'.matched_eq d hd).trans (h.matched_eq d hd)
  taken_eq d hd := (h'.taken_eq d hd).trans (h.taken_eq d hd)
  taken_depth := by rw [h'.taken_depth, h.taken_depth, Bool.or_assoc]

/-- Seen from above, what happens below a tree takes nothing. -/
theorem Gains.below {depth : Nat} {σ σ' : Scan} {messages : List Text} {took : Bool}
    (h : Gains (depth + 1) σ σ' messages took) : Gains depth σ σ' messages false where
  messages_eq := h.messages_eq
  matched_eq d hd := h.matched_eq d (Nat.lt_succ_of_lt hd)
  taken_eq d hd := h.taken_eq d (Nat.lt_succ_of_lt hd)
  taken_depth := by rw [h.taken_eq depth (Nat.lt_succ_self depth), Bool.or_false]

theorem gains_after (depth : Nat) (σ : Scan) (own : Outcome) :
    Gains depth σ (σ.after depth own) own.toList own.isSome where
  messages_eq := rfl
  matched_eq d hd := if_neg (Nat.ne_of_lt hd)
  taken_eq d hd := by
    simp only [after, if_neg (Nat.ne_of_lt hd), if_neg (Nat.ne_of_lt (Nat.lt_succ_of_lt hd))]
  taken_depth := if_pos rfl

theorem matched_after (depth : Nat) (σ : Scan) (own : Outcome) :
    (σ.after depth own).matched depth = own.isSome := if_pos rfl

theorem taken_after_below (depth : Nat) (σ : Scan) (own : Outcome) :
    (σ.after depth own).taken (depth + 1) = false := by
  simp [after]

/-- No entry at this depth is evaluated: at the top one has matched already, elsewhere the
parent has not. -/
def Blocked : Nat → Scan → Prop
  | 0, σ => σ.taken 0 = true
  | d + 1, σ => σ.matched d = false

theorem Blocked.isDue_eq_false {σ : Scan} {e : Entry} (h : Blocked e.depth σ) :
    σ.isDue e = false := by
  unfold isDue
  cases hd : e.depth with
  | zero =>
    rw [hd] at h
    have htaken : σ.taken 0 = true := h
    simp [htaken]
  | succ d =>
    rw [hd] at h
    have hmatched : σ.matched d = false := h
    simp [hmatched]

theorem Blocked.of_gains {depth : Nat} {σ σ' : Scan} {messages : List Text} {took : Bool}
    (h : Blocked depth σ) (hg : Gains depth σ σ' messages took) : Blocked depth σ' := by
  cases depth with
  | zero => exact hg.taken_depth.trans (by rw [show σ.taken 0 = true from h, Bool.true_or])
  | succ d => exact (hg.matched_eq d (Nat.lt_succ_self d)).trans h

theorem step_of_due {s : Stream} {σ : Scan} {e : Entry} (h : σ.isDue e = true) :
    step s σ e = (e.test.evaluate s e.message).map (σ.after e.depth) := if_pos h

theorem step_of_not_due {s : Stream} {σ : Scan} {e : Entry} (h : σ.isDue e = false) :
    step s σ e = .ok (σ.after e.depth none) := if_neg (by simp [h])

mutual

/-- The entries of a tree whose root is not evaluated are passed over. -/
theorem foldlM_entriesAt_of_not_due (s : Stream) {depth : Nat} {σ : Scan} :
    ∀ r : Rule, σ.isDue ⟨depth, r.test, r.message⟩ = false →
      ∃ σ', (Forest.entriesAt depth r).foldlM (step s) σ = .ok σ' ∧ Gains depth σ σ' [] false
  | ⟨test, message, children⟩, h => by
    have hb : Blocked (depth + 1) (σ.after depth none) := matched_after depth σ none
    obtain ⟨σ', hf, hg⟩ := foldlM_entriesBelow_of_blocked s children hb
    refine ⟨σ', ?_, (gains_after depth σ none).trans hg.below⟩
    rw [Forest.entriesAt, List.foldlM_cons, step_of_not_due h, ok_bind, hf]

theorem foldlM_entriesBelow_of_blocked (s : Stream) {depth : Nat} {σ : Scan} :
    ∀ rules : List Rule, Blocked depth σ →
      ∃ σ', (Forest.entriesBelow depth rules).foldlM (step s) σ = .ok σ' ∧
        Gains depth σ σ' [] false
  | [], _ => ⟨σ, rfl, .refl depth σ⟩
  | r :: rest, h => by
    have hr : σ.isDue ⟨depth, r.test, r.message⟩ = false := Blocked.isDue_eq_false h
    obtain ⟨σ', hf, hg⟩ := foldlM_entriesAt_of_not_due s r hr
    obtain ⟨σ'', hf', hg'⟩ := foldlM_entriesBelow_of_blocked s rest (h.of_gains hg)
    refine ⟨σ'', ?_, hg.trans hg'⟩
    rw [Forest.entriesBelow, List.foldlM_append, hf, ok_bind, hf']

end

mutual

/-- The stretch of a tree whose root is evaluated gives what a walk of the tree gives. -/
theorem walk_alike (s : Stream) {depth : Nat} {σ : Scan} :
    ∀ r : Rule, σ.isDue ⟨depth, r.test, r.message⟩ = true →
      Alike (fun o σ' => Gains depth σ σ' (o.getD []) o.isSome) (r.walk s)
        ((Forest.entriesAt depth r).foldlM (step s) σ)
  | ⟨test, message, children⟩, h => by
    rw [Rule.walk, Forest.entriesAt, List.foldlM_cons, step_of_due h]
    cases test.evaluate s message with
    | error e => exact .error e
    | ok own =>
      cases own with
      | none =>
        have hb : Blocked (depth + 1) (σ.after depth none) := matched_after depth σ none
        obtain ⟨σ', hf, hg⟩ := foldlM_entriesBelow_of_blocked s children hb
        rw [Except.map, ok_bind, ok_bind, hf]
        exact .ok ((gains_after depth σ none).trans hg.below)
      | some own =>
        have hm : (σ.after depth (some own)).matched depth = true := matched_after _ _ _
        have hc := walkChildren_alike s children hm
        rw [taken_after_below] at hc
        rw [Except.map, ok_bind, ok_bind]
        exact hc.map_left fun messages σ' ⟨_, hg⟩ =>
          (gains_after depth σ (some own)).trans hg.below

/-- Siblings below a rule that matches. -/
theorem walkChildren_alike (s : Stream) {depth : Nat} {σ : Scan} :
    ∀ rules : List Rule, σ.matched depth = true →
      Alike (fun messages σ' => ∃ took, Gains (depth + 1) σ σ' messages took)
        (Rule.walkChildren s (σ.taken (depth + 1)) rules)
        ((Forest.entriesBelow (depth + 1) rules).foldlM (step s) σ)
  | [], _ => .ok ⟨false, .refl _ σ⟩
  | ⟨test, message, children⟩ :: rest, h => by
    have hmatched : ∀ {σ' messages took}, Gains (depth + 1) σ σ' messages took →
        σ'.matched depth = true := fun hg => (hg.matched_eq depth (Nat.lt_succ_self _)).trans h
    rw [Rule.walkChildren, Forest.entriesBelow, List.foldlM_append]
    cases hskip : test.isFallback && σ.taken (depth + 1) with
    | true =>
      have hdue : σ.isDue ⟨depth + 1, test, message⟩ = false := by simp [isDue, hskip]
      obtain ⟨σ', hf, hg⟩ := foldlM_entriesAt_of_not_due s ⟨test, message, children⟩ hdue
      have hrest := walkChildren_alike s rest (hmatched hg)
      rw [hg.taken_depth, Bool.or_false] at hrest
      rw [hf, ok_bind]
      exact hrest.mono fun _ _ ⟨_, hg'⟩ => ⟨_, hg.trans hg'⟩
    | false =>
      have hdue : σ.isDue ⟨depth + 1, test, message⟩ = true := by simp [isDue, h, hskip]
      refine (walk_alike s ⟨test, message, children⟩ hdue).bind fun own σ' hg => ?_
      have hrest := walkChildren_alike s rest (hmatched hg)
      rw [hg.taken_depth] at hrest
      cases own with
      | none =>
        rw [Option.isSome_none, Bool.or_false] at hrest
        exact hrest.mono fun _ _ ⟨_, hg'⟩ => ⟨_, hg.trans hg'⟩
      | some own =>
        rw [Option.isSome_some, Bool.or_true] at hrest
        exact hrest.map_left fun _ _ ⟨_, hg'⟩ => ⟨_, hg.trans hg'⟩

end

theorem firstMatch_alike (s : Stream) {σ : Scan} (rules : List Rule) (hm : σ.messages = [])
    (ht : σ.taken 0 = false) :
    Alike (fun o σ' => o = if σ'.taken 0 then some σ'.messages else none)
      (Database.firstMatch s rules) ((Forest.toEntries rules).foldlM (step s) σ) := by
  induction rules generalizing σ with
  | nil => exact .ok (by simp [ht])
  | cons r rest ih =>
    have hdue : σ.isDue ⟨0, r.test, r.message⟩ = true := by simp [isDue, ht]
    rw [Database.firstMatch, Forest.toEntries, Forest.entriesBelow, List.foldlM_append]
    refine (walk_alike s r hdue).bind fun own σ' hg => ?_
    have hmessages := hg.messages_eq
    have htaken := hg.taken_depth
    rw [hm, List.nil_append] at hmessages
    rw [ht, Bool.false_or] at htaken
    cases own with
    | none => exact ih hmessages htaken
    | some messages =>
      have hb : Blocked 0 σ' := htaken
      obtain ⟨σ'', hf, hg'⟩ := foldlM_entriesBelow_of_blocked s rest hb
      have htaken' := hg'.taken_depth
      have hmessages' := hg'.messages_eq
      rw [htaken, Option.isSome_some, Bool.true_or] at htaken'
      rw [hmessages, List.append_nil] at hmessages'
      rw [hf]
      exact .ok (by rw [htaken', hmessages']; rfl)

/-- Walking the trees gives what one pass over their entries gives. -/
theorem matching_eq_run_toEntries (d : Database) (s : Stream) :
    d.matching s = run s (Forest.toEntries d.rules) :=
  (firstMatch_alike s d.rules rfl rfl).eq_map

end Scan
end FileMagic
